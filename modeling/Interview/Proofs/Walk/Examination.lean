import Interview.Proofs.Files.FilePaths
import Interview.Proofs.Outcome
import Interview.Proofs.Structure
import Interview.Proofs.Walk.Unfolding

/-! What the examination of a document makes sure of. Every node that a pass can ever reach was looked
at, because the bound on the levels of inclusion leaves room for all of them: going down one level takes
a place that was cached before, or opens one more of the files. -/

namespace Interview

namespace IncludeCache

def within (cache : IncludeCache) (place : WalkPath) : Nat :=
  cache.subtrees.countP fun s => decide (place <+: s.1)

theorem within_le_size (cache : IncludeCache) (place : WalkPath) : cache.within place ≤ cache.size :=
  List.countP_le_length

theorem within_child_le (cache : IncludeCache) (place : WalkPath) (i : Nat) :
    cache.within (place ++ [i]) ≤ cache.within place := by
  refine List.countP_mono_left fun s _ hs => ?_
  simp only [decide_eq_true_eq] at hs ⊢
  exact (List.prefix_append place [i]).trans hs

theorem within_child_lt {cache : IncludeCache} {place : WalkPath} {nodes : List Node}
    (h : cache.nodes? place = some nodes) (i : Nat) :
    cache.within (place ++ [i]) < cache.within place := by
  obtain ⟨inc, hi, -⟩ := Option.map_eq_some_iff.mp h
  refine countP_lt_of_mem (fun s hs => ?_) (find?_mem hi) (by simp) ?_
  · simp only [decide_eq_true_eq] at hs ⊢
    exact (List.prefix_append place [i]).trans hs
  · simp only [decide_eq_false_iff_not]
    intro hp
    have hl := hp.length_le
    simp only [List.length_append, List.length_singleton] at hl
    omega

/-- The file is the document's own or that of an included document at or above a place. -/
def OpenAround (cache : IncludeCache) (file : Path) (parent : WalkPath) : Prop :=
  cache.root = some file ∨
    ∃ at_ inc, at_ ≠ [] ∧ at_ <+: parent ∧ cache.find? at_ = some inc ∧ inc.file = file

theorem mem_enclosingFiles {cache : IncludeCache} {file : Path} {parent : WalkPath} {i : Nat} :
    file ∈ cache.enclosingFiles (parent ++ [i]) ↔ cache.OpenAround file parent := by
  simp only [enclosingFiles, ancestors, List.mem_append, Option.mem_toList, List.mem_filterMap,
    List.mem_map, List.mem_range, Option.map_eq_some_iff, OpenAround]
  refine or_congr Iff.rfl ⟨?_, ?_⟩
  · rintro ⟨at_, ⟨k, hk, rfl⟩, inc, hi, hf⟩
    simp only [List.length_append, List.length_singleton, Nat.add_sub_cancel] at hk
    have ht : (parent ++ [i]).take (k + 1) = parent.take (k + 1) := List.take_append_of_le_length hk
    rw [ht] at hi
    refine ⟨_, inc, fun hn => ?_, List.take_prefix _ _, hi, hf⟩
    have hl := congrArg List.length hn
    simp only [List.length_take, List.length_nil] at hl
    omega
  · rintro ⟨at_, inc, hne, hp, hi, hf⟩
    have hpos := List.length_pos_iff.mpr hne
    have hl := hp.length_le
    refine ⟨at_, ⟨at_.length - 1, ?_, ?_⟩, inc, hi, hf⟩
    · simp only [List.length_append, List.length_singleton]
      omega
    · rw [Nat.sub_add_cancel hpos, List.take_append_of_le_length hl]
      exact (List.prefix_iff_eq_take.mp hp).symm

/-- How many files are not open around the nodes below a place. -/
def unopened (cache : IncludeCache) (fs : FileSystem) (parent : WalkPath) : Nat :=
  fs.filePaths.countP fun file => !(cache.enclosingFiles (parent ++ [0])).contains file

theorem unopened_le_fileCount (cache : IncludeCache) (fs : FileSystem) (parent : WalkPath) :
    cache.unopened fs parent ≤ fs.fileCount := by
  rw [← fs.length_filePaths]
  exact List.countP_le_length

theorem unopened_anti {old new : IncludeCache} {fs : FileSystem} {parent place : WalkPath}
    (h : ∀ file, old.OpenAround file parent → new.OpenAround file place) :
    new.unopened fs place ≤ old.unopened fs parent := by
  refine List.countP_mono_left fun file _ hf => ?_
  simp only [Bool.not_eq_true', List.contains_eq_mem, decide_eq_false_iff_not, mem_enclosingFiles] at hf ⊢
  exact fun ho => hf (h file ho)

theorem unopened_lt {old new : IncludeCache} {fs : FileSystem} {parent place : WalkPath} {file : Path}
    (h : ∀ file, old.OpenAround file parent → new.OpenAround file place) (hm : file ∈ fs.filePaths)
    (ho : ¬ old.OpenAround file parent) (hn : new.OpenAround file place) :
    new.unopened fs place < old.unopened fs parent := by
  refine countP_lt_of_mem (fun file hf => ?_) hm ?_ ?_
  · simp only [Bool.not_eq_true', List.contains_eq_mem, decide_eq_false_iff_not, mem_enclosingFiles] at hf ⊢
    exact fun ho => hf (h file ho)
  · simpa only [Bool.not_eq_true', List.contains_eq_mem, decide_eq_false_iff_not, mem_enclosingFiles] using ho
  · simpa only [Bool.not_eq_false', List.contains_eq_mem, decide_eq_true_eq, mem_enclosingFiles] using hn

/-- The later cache holds what the earlier one does, and beyond that only places of some kind. -/
structure Grown (old new : IncludeCache) (fresh : WalkPath → Prop) : Prop where
  root : new.root = old.root
  subtrees : ∃ added, new.subtrees = old.subtrees ++ added ∧ ∀ s ∈ added, fresh s.1

namespace Grown

variable {old mid new : IncludeCache} {fresh other : WalkPath → Prop}

theorem refl (cache : IncludeCache) (fresh : WalkPath → Prop) : Grown cache cache fresh :=
  ⟨rfl, [], by simp, by simp⟩

theorem trans (h : Grown old mid fresh) (h' : Grown mid new fresh) : Grown old new fresh := by
  obtain ⟨hr, xs, hx, hfx⟩ := h
  obtain ⟨hr', ys, hy, hfy⟩ := h'
  refine ⟨hr'.trans hr, xs ++ ys, by rw [hy, hx, List.append_assoc], fun s hs => ?_⟩
  rcases List.mem_append.mp hs with hs | hs
  · exact hfx s hs
  · exact hfy s hs

theorem mono (h : Grown old new fresh) (hf : ∀ q, fresh q → other q) : Grown old new other := by
  obtain ⟨hr, xs, hx, hfx⟩ := h
  exact ⟨hr, xs, hx, fun s hs => hf _ (hfx s hs)⟩

theorem find? (h : Grown old new fresh) {place : WalkPath} {inc : Included}
    (hi : old.find? place = some inc) : new.find? place = some inc := by
  obtain ⟨-, xs, hx, -⟩ := h
  unfold IncludeCache.find? at hi ⊢
  rw [hx, List.lookup_append, hi]
  rfl

theorem nodes? (h : Grown old new fresh) {place : WalkPath} {nodes : List Node}
    (hn : old.nodes? place = some nodes) : new.nodes? place = some nodes := by
  obtain ⟨inc, hi, rfl⟩ := Option.map_eq_some_iff.mp hn
  exact Option.map_eq_some_iff.mpr ⟨inc, h.find? hi, rfl⟩

theorem isSome_nodes? (h : Grown old new fresh) {place : WalkPath}
    (hs : (old.nodes? place).isSome) : (new.nodes? place).isSome := by
  obtain ⟨nodes, hn⟩ := Option.isSome_iff_exists.mp hs
  rw [h.nodes? hn]
  rfl

theorem openAround (h : Grown old new fresh) {file : Path} {parent place : WalkPath}
    (hp : parent <+: place) (ho : old.OpenAround file parent) : new.OpenAround file place := by
  rcases ho with hr | ⟨at_, inc, hne, ha, hi, hf⟩
  · exact .inl (h.root.trans hr)
  · exact .inr ⟨at_, inc, hne, ha.trans hp, h.find? hi, hf⟩

theorem within_eq (h : Grown old new fresh) {place : WalkPath} (hf : ∀ q, fresh q → ¬ place <+: q) :
    new.within place = old.within place := by
  obtain ⟨-, xs, hx, hfx⟩ := h
  have hz : xs.countP (fun s => decide (place <+: s.1)) = 0 := by
    refine List.countP_eq_zero.mpr fun s hs => ?_
    simpa using hf _ (hfx s hs)
  simp only [within, hx, List.countP_append, hz, Nat.add_zero]

/-- What is opened below one place takes no room from the places beside it. -/
theorem room_beside {parent : WalkPath} {index i : Nat}
    (h : Grown old new (parent ++ [index] <+: ·)) (hne : index ≠ i) (fs : FileSystem) :
    new.within (parent ++ [i]) + new.unopened fs parent ≤
      old.within (parent ++ [i]) + old.unopened fs parent := by
  have hw : new.within (parent ++ [i]) = old.within (parent ++ [i]) := by
    refine h.within_eq fun at_ hp hp' => hne ?_
    have hq := List.prefix_of_prefix_length_le hp hp' (by simp)
    have he := hq.eq_of_length (by simp)
    simpa only [List.append_cancel_left_eq, List.cons.injEq, and_true] using he
  have hu : new.unopened fs parent ≤ old.unopened fs parent :=
    unopened_anti fun file => h.openAround (List.prefix_refl _)
  omega

end Grown

theorem unopened_child_le (cache : IncludeCache) (fs : FileSystem) (parent : WalkPath) (i : Nat) :
    cache.unopened fs (parent ++ [i]) ≤ cache.unopened fs parent :=
  unopened_anti fun _ => (Grown.refl cache fun _ => False).openAround (List.prefix_append _ _)

theorem room_child {cache : IncludeCache} {fs : FileSystem} {parent : WalkPath} {index levels : Nat}
    (h : cache.within (parent ++ [index]) + cache.unopened fs parent ≤ levels) (i : Nat) :
    cache.within (parent ++ [index] ++ [i]) + cache.unopened fs (parent ++ [index]) ≤ levels := by
  have hw := cache.within_child_le (parent ++ [index]) i
  have hu := cache.unopened_child_le fs parent index
  omega

theorem openAt_eq_ok {cache : IncludeCache} {sp : SearchPath} {fs : FileSystem} {n : Node}
    {place : WalkPath} {o : Opened} (h : cache.openAt sp fs n place = .ok o) :
    o.included.file ∈ fs.filePaths ∧ o.included.file ∉ cache.enclosingFiles place := by
  unfold openAt at h
  dsimp only at h
  split at h
  · obtain ⟨path, -, h⟩ := bind_eq_ok.mp h
    split at h
    · cases h
    · next hf =>
      split at h
      · cases h
      · next ho =>
        obtain ⟨d, -, h⟩ := bind_eq_ok.mp h
        cases h
        exact ⟨FileSystem.canonical_mem_filePaths (by simpa using hf), by simpa using ho⟩
  · cases h

theorem find?_add_self {cache : IncludeCache} {place : WalkPath} {o : Opened}
    (h : cache.nodes? place = none) : (cache.add place o).find? place = some o.included := by
  have hf : cache.subtrees.lookup place = none := Option.map_eq_none_iff.mp h
  unfold find?
  simp only [add, insert, List.lookup_append, hf, Option.none_or, List.lookup_cons_self]

theorem grown_add (cache : IncludeCache) (place : WalkPath) (o : Opened) :
    cache.Grown (cache.add place o) (· = place) :=
  ⟨rfl, [(place, o.included)], rfl, by simp⟩

end IncludeCache

namespace Walk

/-- The nodes right below a node, whatever the store admits to. -/
def inside (cache : IncludeCache) (place : WalkPath) (n : Node) : List Node :=
  match n.kindAt place with
  | .ok .branch => n.interview.getD []
  | .ok .inclusion => (cache.nodes? place).getD []
  | _ => []

theorem inside_of_branch {cache : IncludeCache} {place : WalkPath} {n : Node}
    (h : n.kindAt place = .ok .branch) : inside cache place n = n.interview.getD [] := by
  rw [inside, h]

theorem inside_of_inclusion {cache : IncludeCache} {place : WalkPath} {n : Node} {nodes : List Node}
    (h : n.kindAt place = .ok .inclusion) (hc : cache.nodes? place = some nodes) :
    inside cache place n = nodes := by
  rw [inside, h]
  dsimp only
  rw [hc, Option.getD_some]

/-- Nodes below a place, from some index on, that are sound at every depth and with every included
document there. -/
inductive Checked (cache : IncludeCache) : WalkPath → Nat → List Node → Prop
  | done {parent : WalkPath} {index : Nat} : Checked cache parent index []
  | node {parent : WalkPath} {index : Nat} {n : Node} {rest : List Node} {kind : Kind} :
    n.kindAt (parent ++ [index]) = .ok kind → n.Sound kind →
    (kind = .inclusion → (cache.nodes? (parent ++ [index])).isSome) →
    Checked cache (parent ++ [index]) 0 (inside cache (parent ++ [index]) n) →
    Checked cache parent (index + 1) rest → Checked cache parent index (n :: rest)

theorem inside_grown {old new : IncludeCache} {fresh : WalkPath → Prop} {place : WalkPath} {n : Node}
    {kind : Kind} (hg : old.Grown new fresh) (hk : n.kindAt place = .ok kind)
    (hc : kind = .inclusion → (old.nodes? place).isSome) : inside new place n = inside old place n := by
  unfold inside
  rw [hk]
  cases kind with
  | inclusion =>
    obtain ⟨nodes, hn⟩ := Option.isSome_iff_exists.mp (hc rfl)
    simp only [hn, hg.nodes? hn]
  | _ => rfl

theorem Checked.grown {old new : IncludeCache} {fresh : WalkPath → Prop} {parent : WalkPath}
    {index : Nat} {nodes : List Node} (h : Checked old parent index nodes)
    (hg : old.Grown new fresh) : Checked new parent index nodes := by
  induction h with
  | done => exact .done
  | node hk hs hc _ _ ihi ihr =>
    refine .node hk hs (fun hi => hg.isSome_nodes? (hc hi)) ?_ ihr
    rw [inside_grown hg hk hc]
    exact ihi

/-- A node that was examined: what was opened meanwhile lies at its place or below, and the nodes inside it
are sound. -/
structure Examined (old new : IncludeCache) (place : WalkPath) (n : Node) (kind : Kind) : Prop where
  grown : old.Grown new (place <+: ·)
  cached : kind = .inclusion → (new.nodes? place).isSome
  sound : Checked new place 0 (inside new place n)

namespace Examined

variable {old mid new : IncludeCache} {parent place : WalkPath} {index : Nat} {n : Node}
  {nodes rest : List Node} {kind : Kind}

theorem prefix_of_below {at_ : WalkPath} (h : ∃ i, 0 ≤ i ∧ place ++ [i] <+: at_) : place <+: at_ := by
  obtain ⟨i, -, hp⟩ := h
  exact (List.prefix_append place [i]).trans hp

theorem branch (hk : n.kindAt place = .ok .branch)
    (hg : old.Grown new fun at_ => ∃ i, 0 ≤ i ∧ place ++ [i] <+: at_)
    (hc : Checked new place 0 (n.interview.getD [])) : Examined old new place n .branch := by
  refine ⟨hg.mono fun _ => prefix_of_below, nofun, ?_⟩
  rw [inside_of_branch hk]
  exact hc

theorem inclusion (hk : n.kindAt place = .ok .inclusion) (hopen : mid.nodes? place = some nodes)
    (hg : old.Grown mid (place <+: ·))
    (hbelow : mid.Grown new fun at_ => ∃ i, 0 ≤ i ∧ place ++ [i] <+: at_)
    (hc : Checked new place 0 nodes) : Examined old new place n .inclusion := by
  have hstill := hbelow.nodes? hopen
  refine ⟨hg.trans (hbelow.mono fun _ => prefix_of_below), fun _ => ?_, ?_⟩
  · rw [hstill, Option.isSome_some]
  · rw [inside_of_inclusion hk hstill]
    exact hc

theorem leaf (hk : n.kindAt place = .ok kind) (hb : kind ≠ .branch) (hi : kind ≠ .inclusion) :
    Examined old old place n kind := by
  refine ⟨.refl _ _, fun h => absurd h hi, ?_⟩
  rw [inside, hk]
  cases kind with
  | branch => exact absurd rfl hb
  | inclusion => exact absurd rfl hi
  | _ => exact .done

theorem cons (h : Examined old mid (parent ++ [index]) n kind)
    (hk : n.kindAt (parent ++ [index]) = .ok kind) (hs : n.Sound kind)
    (hg : mid.Grown new fun at_ => ∃ i, index + 1 ≤ i ∧ parent ++ [i] <+: at_)
    (hrest : Checked new parent (index + 1) rest) :
    old.Grown new (fun at_ => ∃ i, index ≤ i ∧ parent ++ [i] <+: at_) ∧
      Checked new parent index (n :: rest) := by
  have hinside : Checked new (parent ++ [index]) 0 (inside new (parent ++ [index]) n) := by
    rw [inside_grown hg hk h.cached]
    exact h.sound.grown hg
  refine ⟨(h.grown.mono ?_).trans (hg.mono ?_),
    .node hk hs (fun hi => hg.isSome_nodes? (h.cached hi)) hinside hrest⟩
  · exact fun at_ hp => ⟨index, Nat.le_refl _, hp⟩
  · rintro at_ ⟨i, hle, hp⟩
    exact ⟨i, Nat.le_of_succ_le hle, hp⟩

end Examined

variable {sp : SearchPath} {fs : FileSystem}

theorem checkRange_ok {n : Node} {kind : Kind} {place : WalkPath} {p q : Progress}
    (h : (checkRange n kind place).exec p = (.ok (), q)) :
    q = p ∧ ∀ spec, n.range = some spec → ∃ r, Range.parse n.type spec = .ok r := by
  unfold checkRange at h
  split at h
  · next hn =>
    cases h
    exact ⟨rfl, by simp [hn]⟩
  · next spec hn =>
    split at h
    · next r hr =>
      cases h
      exact ⟨rfl, fun spec' hs => ⟨r, by rw [← hr]; congr; simpa [hn] using hs.symm⟩⟩
    · cases h

theorem checkPattern_ok {source : Option String} {p q : Progress}
    (h : (checkPattern source).exec p = (.ok (), q)) :
    q = p ∧ ∀ s, source = some s → ∃ r, compilePattern s = .ok r := by
  unfold checkPattern at h
  split at h
  · cases h
    exact ⟨rfl, by simp⟩
  · next s =>
    rw [exec_discard, exec_lift] at h
    cases hc : compilePattern s with
    | error e => simp [hc, Except.map] at h
    | ok r =>
      simp only [hc, Except.map, Prod.mk.injEq, true_and] at h
      exact ⟨h.symm, fun s' hs => ⟨r, by rw [← hc, Option.some.inj hs]⟩⟩

theorem checkRules_ok {n : Node} {kind : Kind} {place : WalkPath} {p q : Progress}
    (h : (checkRules n kind place).exec p = (.ok (), q))
    (ht : kind = .reset → n.resetKeys.isSome ∨ n.resetKeyRegexp.isSome) : q = p ∧ n.Sound kind := by
  obtain ⟨_, a, h1, ha⟩ := exec_bind_ok h
  obtain ⟨_, b, h2, hb⟩ := exec_bind_ok ha
  obtain ⟨_, c, h3, h4⟩ := exec_bind_ok hb
  obtain ⟨rfl, hrange⟩ := checkRange_ok h1
  obtain ⟨rfl, hregexp⟩ := checkPattern_ok h2
  obtain ⟨rfl, hvalues⟩ := checkPattern_ok h3
  obtain ⟨rfl, hreset⟩ := checkPattern_ok h4
  exact ⟨rfl, hrange, hregexp, hvalues, hreset, ht⟩

theorem exec_includedNodes (n : Node) (place : WalkPath) (p : Progress) :
    (includedNodes sp fs n place).exec p =
      match p.includes.nodes? place with
      | some nodes => (.ok nodes, p)
      | none =>
        match p.includes.openAt sp fs n place with
        | .error e => (.error e, p)
        | .ok o =>
          (.ok o.included.nodes,
            { p with includes := p.includes.add place o, log := p.log ++ o.events }) := by
  unfold includedNodes
  rw [exec_bind, exec_get]
  dsimp only
  cases p.includes.nodes? place with
  | some nodes => rfl
  | none =>
    dsimp only
    rw [exec_openInclude]
    cases p.includes.openAt sp fs n place <;> rfl

theorem includedNodes_ok {n : Node} {place : WalkPath} {nodes : List Node} {p q : Progress}
    (h : (includedNodes sp fs n place).exec p = (.ok nodes, q)) :
    (p.includes.nodes? place = some nodes ∧ q = p) ∨
      (p.includes.nodes? place = none ∧ ∃ o, p.includes.openAt sp fs n place = .ok o ∧
        o.included.nodes = nodes ∧ q.includes = p.includes.add place o) := by
  rw [exec_includedNodes] at h
  cases hc : p.includes.nodes? place with
  | some cached =>
    simp only [hc] at h
    cases h
    exact .inl ⟨rfl, rfl⟩
  | none =>
    cases ho : p.includes.openAt sp fs n place with
    | error e => simp [hc, ho] at h
    | ok o =>
      simp only [hc, ho] at h
      cases h
      exact .inr ⟨rfl, o, rfl, rfl, rfl⟩

theorem checkNode_eq (descend : List Node → WalkPath → Walk Unit) (place : WalkPath) (n : Node) :
    checkNode sp fs descend place n = (do
      let kind ← lift (n.kindAt place)
      match kind with
      | .inclusion => descend (← includedNodes sp fs n place) place
      | .branch => checkNodes sp fs descend place 0 (n.interview.getD [])
      | .question => checkAsked n kind place
      | .set => checkAsked n kind place
      | .reset =>
        if n.resetKeys.isNone && n.resetKeyRegexp.isNone then
          throw (.badItem .reset place .noTargets)
      | .notice => pure ()
      | .update => pure ()
      checkRules n kind place) := by
  rw [checkNode.eq_def]
  cases n with
  | mk =>
    dsimp only
    refine congrArg (lift _ >>= ·) (funext fun kind => ?_)
    cases kind with
    | branch => dsimp only; split <;> rfl
    | _ => rfl

theorem checkAsked_ok {n : Node} {kind : Kind} {place : WalkPath} {p q : Progress}
    (h : (checkAsked n kind place).exec p = (.ok (), q)) : q = p := by
  have hr {α : Type} {field : Option α} {name : String} {p q : Progress}
      (h : (require field name kind place).exec p = (.ok (), q)) : q = p := by
    unfold require at h
    split at h <;> cases h
    rfl
  obtain ⟨_, a, h1, ha⟩ := exec_bind_ok h
  obtain ⟨_, b, h2, h3⟩ := exec_bind_ok ha
  rw [hr h3, hr h2, hr h1]

theorem checkNode_ok {descend : List Node → WalkPath → Walk Unit} {n : Node} {place : WalkPath}
    {p q : Progress} (h : (checkNode sp fs descend place n).exec p = (.ok (), q)) :
    ∃ kind, n.kindAt place = .ok kind ∧ n.Sound kind ∧
      match kind with
      | .inclusion => ∃ nodes r, (includedNodes sp fs n place).exec p = (.ok nodes, r) ∧
          (descend nodes place).exec r = (.ok (), q)
      | .branch => (checkNodes sp fs descend place 0 (n.interview.getD [])).exec p = (.ok (), q)
      | _ => q = p := by
  rw [checkNode_eq] at h
  obtain ⟨kind, r, hl, hnode⟩ := exec_bind_ok h
  rw [exec_lift] at hl
  obtain ⟨hk, rfl⟩ := Prod.mk.inj hl
  refine ⟨kind, hk, ?_⟩
  cases kind with
  | branch =>
    obtain ⟨_, s, hi, hrules⟩ := exec_bind_ok hnode
    obtain ⟨rfl, hs⟩ := checkRules_ok hrules (by simp)
    exact ⟨hs, hi⟩
  | inclusion =>
    obtain ⟨nodes, s, hi, hrest⟩ := exec_bind_ok hnode
    obtain ⟨_, t, hd, hrules⟩ := exec_bind_ok hrest
    obtain ⟨rfl, hs⟩ := checkRules_ok hrules (by simp)
    exact ⟨hs, nodes, s, hi, hd⟩
  | reset =>
    by_cases ht : (n.resetKeys.isNone && n.resetKeyRegexp.isNone) = true
    · simp [ht] at hnode
    · simp only [ht, Bool.false_eq_true, if_false] at hnode
      obtain ⟨rfl, hs⟩ := checkRules_ok hnode fun _ => by
        cases hr : n.resetKeys <;> cases hp : n.resetKeyRegexp <;> simp [hr, hp] at ht ⊢
      exact ⟨hs, rfl⟩
  | question =>
    obtain ⟨_, s, ha, hrules⟩ := exec_bind_ok hnode
    obtain ⟨rfl, hs⟩ := checkRules_ok hrules (by simp)
    exact ⟨hs, checkAsked_ok ha⟩
  | set =>
    obtain ⟨_, s, ha, hrules⟩ := exec_bind_ok hnode
    obtain ⟨rfl, hs⟩ := checkRules_ok hrules (by simp)
    exact ⟨hs, checkAsked_ok ha⟩
  | notice =>
    obtain ⟨rfl, hs⟩ := checkRules_ok hnode (by simp)
    exact ⟨hs, rfl⟩
  | update =>
    obtain ⟨rfl, hs⟩ := checkRules_ok hnode (by simp)
    exact ⟨hs, rfl⟩

theorem checkNodes_cons_ok {descend : List Node → WalkPath → Walk Unit} {n : Node} {rest : List Node}
    {parent : WalkPath} {index : Nat} {p q : Progress}
    (h : (checkNodes sp fs descend parent index (n :: rest)).exec p = (.ok (), q)) :
    ∃ r, (checkNode sp fs descend (parent ++ [index]) n).exec p = (.ok (), r) ∧
      (checkNodes sp fs descend parent (index + 1) rest).exec r = (.ok (), q) := by
  rw [checkNodes] at h
  obtain ⟨_, r, hn, hr⟩ := exec_bind_ok h
  exact ⟨r, hn, hr⟩

/-- An included document has less room than the nodes around it: it takes a cached place, or one of the
files that were not open. -/
theorem includedNodes_room {levels : Nat} {n : Node} {nodes : List Node} {parent : WalkPath}
    {index : Nat} {p q : Progress}
    (h : (includedNodes sp fs n (parent ++ [index])).exec p = (.ok nodes, q))
    (hroom : p.includes.within (parent ++ [index]) + p.includes.unopened fs parent ≤ levels) :
    q.includes.nodes? (parent ++ [index]) = some nodes ∧
      p.includes.Grown q.includes (parent ++ [index] <+: ·) ∧
      ∀ i, q.includes.within (parent ++ [index] ++ [i]) +
        q.includes.unopened fs (parent ++ [index]) < levels := by
  rcases includedNodes_ok h with ⟨hc, rfl⟩ | ⟨hc, o, ho, hn, hq⟩
  · refine ⟨hc, .refl _ _, fun i => ?_⟩
    have hw := IncludeCache.within_child_lt hc i
    have hu := q.includes.unopened_child_le fs parent index
    omega
  · have hg := p.includes.grown_add (parent ++ [index]) o
    have hf := IncludeCache.find?_add_self (o := o) hc
    obtain ⟨hm, hnew⟩ := IncludeCache.openAt_eq_ok ho
    rw [hq]
    refine ⟨Option.map_eq_some_iff.mpr ⟨_, hf, hn⟩, hg.mono fun at_ h => h ▸ List.prefix_refl _,
      fun i => ?_⟩
    have hw := p.includes.within_child_le (parent ++ [index]) i
    have he : (p.includes.add (parent ++ [index]) o).within (parent ++ [index] ++ [i]) =
        p.includes.within (parent ++ [index] ++ [i]) := by
      refine hg.within_eq fun at_ h hp => ?_
      subst h
      have hl := hp.length_le
      simp only [List.length_append, List.length_singleton] at hl
      omega
    have hu : (p.includes.add (parent ++ [index]) o).unopened fs (parent ++ [index]) <
        p.includes.unopened fs parent :=
      IncludeCache.unopened_lt (fun file => hg.openAround (List.prefix_append _ _)) hm
        (fun h => hnew (IncludeCache.mem_enclosingFiles.mpr h))
        (.inr ⟨_, _, by simp, List.prefix_refl _, hf, rfl⟩)
    omega

/-- Every node that is reached from examined nodes was examined too. -/
theorem checkNodes_checked {levels : Nat} {nodes : List Node} {parent : WalkPath} {index : Nat}
    {p q : Progress}
    (h : (checkNodes sp fs (checkLevels sp fs levels) parent index nodes).exec p = (.ok (), q))
    (hroom : ∀ i, index ≤ i →
      p.includes.within (parent ++ [i]) + p.includes.unopened fs parent ≤ levels) :
    p.includes.Grown q.includes (fun at_ => ∃ i, index ≤ i ∧ parent ++ [i] <+: at_) ∧
      Checked q.includes parent index nodes := by
  match nodes with
  | [] =>
    obtain rfl : p = q := (Prod.mk.inj h).2
    exact ⟨.refl _ _, .done⟩
  | n :: rest =>
    obtain ⟨r, hn, hr⟩ := checkNodes_cons_ok h
    obtain ⟨kind, hk, hs, hn⟩ := checkNode_ok hn
    have hhere := hroom index (Nat.le_refl _)
    have hx : Examined p.includes r.includes (parent ++ [index]) n kind := by
      cases kind with
      | branch =>
        have hsize := n.sizeOf_getD_interview
        obtain ⟨hg, hc⟩ := checkNodes_checked hn fun i _ => IncludeCache.room_child hhere i
        exact .branch hk hg hc
      | inclusion =>
        obtain ⟨nodes, s, hi, hd⟩ := hn
        obtain ⟨hopen, hg, hless⟩ := includedNodes_room hi hhere
        cases levels with
        | zero => exact absurd (hless 0) (Nat.not_lt_zero _)
        | succ levels =>
          obtain ⟨hbelow, hc⟩ := checkNodes_checked hd fun i _ => Nat.le_of_lt_succ (hless i)
          exact .inclusion hk hopen hg hbelow hc
      | _ =>
        obtain rfl : r = p := hn
        exact .leaf hk (by simp) (by simp)
    have hbeside (i : Nat) (hi : index + 1 ≤ i) :
        r.includes.within (parent ++ [i]) + r.includes.unopened fs parent ≤ levels := by
      have hle := hx.grown.room_beside (i := i) (by omega) fs
      exact hle.trans (hroom i (by omega))
    obtain ⟨hg, hrest⟩ := checkNodes_checked hr hbeside
    exact hx.cons hk hs hg hrest
termination_by (levels, sizeOf nodes)

/-- A document that passes its examination is sound at every depth, whatever was cached before. -/
theorem check_checked {nodes : List Node} {p q : Progress}
    (h : (check sp fs nodes).exec p = (.ok (), q)) : Checked q.includes [] 0 nodes := by
  rw [check, exec_bind, exec_get] at h
  refine (checkNodes_checked h fun i _ => ?_).2
  have hw := p.includes.within_le_size ([] ++ [i])
  have hu := p.includes.unopened_le_fileCount fs []
  omega

end Walk
end Interview
