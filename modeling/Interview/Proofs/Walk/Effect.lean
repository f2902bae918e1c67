import Interview.Proofs.Settings.Deleting
import Interview.Proofs.Walk.Nesting
import Interview.Proofs.Walk.Retention

/-! The effect of a pass. Up to the node that ends it, a pass does nothing but commit the updates that it
visits, in their order; if it starts again, that one node has changed something, and nothing else has. -/

namespace Interview

namespace IncludeCache

theorem find?_add_of_ne {cache : IncludeCache} {place other : WalkPath} (h : other ≠ place) (o : Opened) :
    (cache.add place o).find? other = cache.find? other := by
  have hadd : (cache.add place o).find? other =
      (cache.find? other).or ([(place, o.included)].lookup other) := List.lookup_append
  have hnone : [(place, o.included)].lookup other = none :=
    List.lookup_eq_none_iff.mpr (by simpa using h)
  rw [hadd, hnone, Option.or_none]

end IncludeCache

theorem Commit.Chain.changesAt {s t : Settings} {commits : List Commit} (h : Chain s commits t) :
    s.ChangesAt t (commits.map (·.item.key)) := by
  induction h with
  | nil => exact .refl _
  | cons hw _ ih => exact (Settings.write_changesAt hw).trans ih

structure Commit.Own (sp : SearchPath) (fs : FileSystem) (c : Commit) (v : WalkPath × Node) :
    Prop where
  made : c.By v
  item : Item.resolve sp fs v.2 c.item.kind v.1 c.before = .ok c.item
  value : c.item.write c.before v.2.value = (.ok c.value, c.after)
  write : c.before.write c.item.key c.value = (.ok (), c.after)

namespace Walk

def placed (parent : WalkPath) (index : Nat) : List Node → List (WalkPath × Node)
  | [] => []
  | n :: rest => (parent ++ [index], n) :: placed parent (index + 1) rest

variable {sp : SearchPath} {fs : FileSystem}

/-- A pass up to some moment, with the nodes that are still to be visited: a node is taken from them, and
the nodes that the pass goes on to below it stand in its place. Along go the enabled nodes that were
visited and the commits of the updates among them. -/
inductive Visits (sp : SearchPath) (fs : FileSystem) :
    List (WalkPath × Node) → Progress → List (WalkPath × Node) → List Commit →
      List (WalkPath × Node) → Progress → Prop
  | here {todo : List (WalkPath × Node)} {p : Progress} : Visits sp fs todo p [] [] todo p
  | skip {v : WalkPath × Node} {rest visited todo : List (WalkPath × Node)} {p q : Progress}
      {commits : List Commit} :
    v.2.disabled = true → Visits sp fs rest p visited commits todo q →
    Visits sp fs (v :: rest) p visited commits todo q
  | pass {v : WalkPath × Node} {rest visited todo : List (WalkPath × Node)} {p q : Progress}
      {commits : List Commit} :
    v.2.disabled = false → v.2.kindAt v.1 ≠ .ok .update → stop? sp fs p v.1 v.2 = none →
    Visits sp fs (placed v.1 0 (entered p.includes p.store v.1 v.2) ++ rest) p visited commits todo q →
    Visits sp fs (v :: rest) p (v :: visited) commits todo q
  | count {v : WalkPath × Node} {rest visited todo : List (WalkPath × Node)} {p q : Progress}
      {commits : List Commit} {item : Item} {total : Int64} {value : Value} {after : Settings} :
    v.2.disabled = false → v.2.kindAt v.1 = .ok .update →
    raised sp fs v.2 v.1 p.store = .ok (item, total) →
    item.write p.store (some (.int total)) = (.ok value, after) →
    Visits sp fs rest { p with store := after } visited commits todo q →
    Visits sp fs (v :: rest) p (v :: visited) (⟨item, value, p.store, after⟩ :: commits) todo q

def isUpdate (v : WalkPath × Node) : Bool := v.2.kind == some Kind.update.name

theorem isUpdate_iff {v : WalkPath × Node} : isUpdate v = true ↔ v.2.kindAt v.1 = .ok .update := by
  rw [isUpdate, beq_iff_eq]
  constructor
  · intro hk
    rw [Node.kindAt_eq_ok, hk]
    exact Kind.ofName?_name .update
  · exact Node.kind_of_kindAt

def opened (cache : IncludeCache) (nodes : List (WalkPath × Node)) : List (WalkPath × Node) :=
  nodes.flatMap fun v => v :: treeFrom cache v.1 0 (inside cache v.1 v.2)

theorem opened_placed (cache : IncludeCache) (parent : WalkPath) (index : Nat) (nodes : List Node) :
    opened cache (placed parent index nodes) = treeFrom cache parent index nodes := by
  induction nodes generalizing index with
  | nil => rw [treeFrom_nil, placed, opened, List.flatMap_nil]
  | cons n rest ih =>
    have hrest := ih (index + 1)
    rw [opened] at hrest
    rw [treeFrom_cons, placed, opened, List.flatMap_cons, hrest, List.cons_append]

namespace Visits

variable {start todo visited more rest : List (WalkPath × Node)} {p q r : Progress}
  {commits later : List Commit}

theorem trans (h : Visits sp fs start p visited commits todo q)
    (h' : Visits sp fs todo q more later rest r) :
    Visits sp fs start p (visited ++ more) (commits ++ later) rest r := by
  induction h with
  | here => exact h'
  | skip hd _ ih => exact .skip hd (ih h')
  | pass hd hk hs _ ih => exact .pass hd hk hs (ih h')
  | count hd hk hr hw _ ih => exact .count hd hk hr hw (ih h')

theorem progress_eq (h : Visits sp fs start p visited commits todo q) :
    q = { p with store := q.store } := by
  induction h with
  | here => rfl
  | skip _ _ ih => exact ih
  | pass _ _ _ _ ih => exact ih
  | count _ _ _ _ _ ih => exact ih

theorem chain (h : Visits sp fs start p visited commits todo q) :
    Commit.Chain p.store commits q.store := by
  induction h with
  | here => exact .nil
  | skip _ _ ih => exact ih
  | pass _ _ _ _ ih => exact ih
  | @count v rest visited todo p q commits item total value after _ _ _ hw _ ih =>
    exact .cons (c := ⟨item, value, p.store, after⟩) (Item.write_ok hw) ih

theorem updates (h : Visits sp fs start p visited commits todo q) :
    List.Forall₂ Commit.By commits (visited.filter isUpdate) := by
  induction h with
  | here => exact .nil
  | skip _ _ ih => exact ih
  | pass _ hk _ _ ih =>
    rw [List.filter_cons_of_neg fun hu => hk (isUpdate_iff.mp hu)]
    exact ih
  | count hd hk hr _ _ ih =>
    rw [List.filter_cons_of_pos (isUpdate_iff.mpr hk)]
    obtain ⟨hkey, hkind, hplace, -⟩ := raised_eq_ok hr
    exact .cons ⟨hd, by rw [hk, hkind], hplace, by rw [hkind, hkey]⟩ ih

/-- Nodes are visited in the order of the document. -/
theorem sublist (h : Visits sp fs start p visited commits todo q) :
    (visited ++ todo).Sublist (opened p.includes start) := by
  induction h with
  | @here todo p =>
    rw [List.nil_append]
    induction todo with
    | nil => exact .slnil
    | cons v rest ih =>
      rw [opened, List.flatMap_cons, List.cons_append]
      exact (ih.trans (List.sublist_append_right _ _)).cons_cons v
  | @skip v rest _ _ p _ _ _ _ ih =>
    rw [opened, List.flatMap_cons]
    exact ih.trans (List.sublist_append_right _ _)
  | @pass v rest _ _ p _ _ _ _ _ _ ih =>
    rw [opened, List.flatMap_append, ← opened, ← opened, opened_placed] at ih
    rw [opened, List.flatMap_cons, List.cons_append, List.cons_append, ← opened]
    -- The pass enters all that is inside the node, or nothing of it.
    refine (ih.trans ?_).cons_cons v
    refine List.Sublist.append ?_ (List.Sublist.refl _)
    rcases entered_subset p.includes p.store v.1 v.2 with hn | hn
    · rw [hn, treeFrom_nil]
      exact List.nil_sublist _
    · rw [hn]
  | @count v rest _ _ p _ _ _ _ _ _ _ _ _ _ _ ih =>
    rw [opened, List.flatMap_cons, List.cons_append, List.cons_append]
    exact (ih.trans (List.sublist_append_right _ _)).cons_cons v

end Visits

/-- How far a pass over some nodes has come that ended well: past them all, or to a node that ends it. -/
inductive Reaches (sp : SearchPath) (fs : FileSystem) (start : List (WalkPath × Node)) (p : Progress)
    (rest : List (WalkPath × Node)) : Scan → Progress → Prop
  | through {visited : List (WalkPath × Node)} {commits : List Commit} {q : Progress} :
    Visits sp fs start p visited commits rest q → Reaches sp fs start p rest .exhausted q
  | halted {visited todo : List (WalkPath × Node)} {commits : List Commit} {v : WalkPath × Node}
      {mid q : Progress} {outcome : Scan} :
    Visits sp fs start p visited commits (v :: todo) mid → v.2.disabled = false →
    stop? sp fs mid v.1 v.2 = some (.ok outcome, q) → Reaches sp fs start p rest outcome q

section Reaching

variable {n : Node} {place : WalkPath} {p q : Progress} {outcome : Scan}

theorem Reaches.of_exhausted {start rest visited : List (WalkPath × Node)} {commits : List Commit}
    {mid : Progress} (hv : Visits sp fs start p visited commits rest mid)
    (h : ((.ok .exhausted : Except Error Scan), mid) = (.ok outcome, q)) :
    Reaches sp fs start p rest outcome q := by
  obtain ⟨ho, rfl⟩ := Prod.mk.inj h
  obtain rfl := Except.ok.inj ho
  exact .through hv

theorem reaches_update (hd : n.disabled = false) (hk : n.kindAt place = .ok .update)
    (h : (update sp fs n place).exec p = (.ok outcome, q)) (rest : List (WalkPath × Node)) :
    Reaches sp fs ((place, n) :: rest) p rest outcome q := by
  rw [exec_update] at h
  cases hr : raised sp fs n place p.store with
  | error e => simp [hr] at h
  | ok counted =>
    obtain ⟨item, total⟩ := counted
    simp only [hr] at h
    cases hw : item.write p.store (some (.int total)) with
    | mk written after =>
      simp only [hw] at h
      obtain ⟨ho, rfl⟩ := Prod.mk.inj h
      obtain ⟨value, rfl, rfl⟩ := map_eq_ok.mp ho
      exact .through (.count hd hk hr hw .here)

theorem Reaches.after {start todo rest visited : List (WalkPath × Node)} {commits : List Commit}
    {mid : Progress} (hv : Visits sp fs start p visited commits todo mid)
    (h : Reaches sp fs todo mid rest outcome q) : Reaches sp fs start p rest outcome q := by
  cases h with
  | through h => exact .through (hv.trans h)
  | halted h hd hs => exact .halted (hv.trans h) hd hs

theorem reaches_scanAt {cache : IncludeCache} (hp : p.includes = cache)
    (hinside : ∀ {q : Progress} {outcome : Scan} (rest : List (WalkPath × Node)),
      (scanFrom sp fs cache place 0 (inside cache place n)).exec p = (.ok outcome, q) →
        Reaches sp fs (placed place 0 (inside cache place n) ++ rest) p rest outcome q)
    (h : (scanAt sp fs cache place n).exec p = (.ok outcome, q)) (rest : List (WalkPath × Node)) :
    Reaches sp fs ((place, n) :: rest) p rest outcome q := by
  cases hd : n.disabled with
  | true =>
    rw [scanAt_disabled hd, exec_pure] at h
    exact .of_exhausted (.skip hd .here) h
  | false =>
    by_cases hu : n.kindAt place = .ok .update
    · rw [scanAt_enabled hd, exec_bind, exec_lift, hu] at h
      exact reaches_update hd hu h rest
    · have hku : n.kind ≠ some Kind.update.name := Node.kind_ne_of_kindAt hu
      rw [← hp, exec_scanAt hd hku] at h
      cases hs : stop? sp fs p place n with
      | some ending =>
        rw [hs] at h
        subst h
        exact .halted .here hd hs
      | none =>
        rw [hs] at h
        dsimp only at h
        have hbelow : Reaches sp fs (placed place 0 (entered p.includes p.store place n) ++ rest) p rest
            outcome q := by
          rcases entered_subset p.includes p.store place n with hn | hn
          · rw [hn, exec_scanFrom_nil] at h
            rw [hn]
            exact .of_exhausted .here h
          · rw [hn, hp] at h ⊢
            exact hinside rest h
        cases hbelow with
        | through hv => exact .through (.pass hd hu hs hv)
        | halted hv hd' hs' => exact .halted (.pass hd hu hs hv) hd' hs'

/-- A pass that ends well visits its nodes one after the other. -/
theorem reaches_scanFrom {cache : IncludeCache} (parent : WalkPath) (index : Nat) (nodes : List Node)
    {p q : Progress} {outcome : Scan} (hp : p.includes = cache)
    (h : (scanFrom sp fs cache parent index nodes).exec p = (.ok outcome, q))
    (rest : List (WalkPath × Node)) :
    Reaches sp fs (placed parent index nodes ++ rest) p rest outcome q := by
  induction parent, index, nodes using tree_induction cache generalizing p q outcome rest with
  | nil parent index =>
    rw [exec_scanFrom_nil] at h
    exact .of_exhausted .here h
  | cons parent index n siblings ihi ihr =>
    rw [exec_scanFrom_cons] at h
    rw [placed, List.cons_append]
    cases hn : (scanAt sp fs cache (parent ++ [index]) n).exec p with
    | mk r mid =>
      rw [hn] at h
      rcases r with e | first
      · cases (Prod.mk.inj h).1
      · cases reaches_scanAt hp (fun rest hi => ihi hp hi rest) hn
          (placed parent (index + 1) siblings ++ rest) with
        | through hv =>
          -- Past the node the cache is the same, so the tree of its siblings is, too.
          have hmid : mid.includes = cache := by
            rw [hv.progress_eq]
            exact hp
          exact .after hv (ihr hmid h rest)
        | halted hv hd hs =>
          have hended : first = outcome ∧ mid = q := by
            cases first with
            | exhausted => exact absurd hs stop?_ne_exhausted
            | _ =>
              obtain ⟨ho, hq⟩ := Prod.mk.inj h
              exact ⟨Except.ok.inj ho, hq⟩
          obtain ⟨rfl, rfl⟩ := hended
          exact .halted hv hd hs

end Reaching

def deletions (place : WalkPath) (deleted : List String) : List Event :=
  if deleted.isEmpty then [] else [.deleted place deleted]

/-- The deletions of a reset: of all its targets, each of which was there and is gone. -/
structure Clears (n : Node) (place : WalkPath) (s : Settings) (deleted : List String) (t : Settings) :
    Prop where
  targets : cleared n place s = (.ok deleted, t)
  deletes : s.Deletes deleted t
  gone : ∀ key ∈ deleted, t.get? key = none

/-- What a node does that makes a pass start again, with the keys that it touches. -/
inductive Acts (sp : SearchPath) (fs : FileSystem) (p : Progress) (v : WalkPath × Node) :
    List String → Progress → Prop
  | opened {o : IncludeCache.Opened} :
    v.2.kindAt v.1 = .ok .inclusion → p.includes.find? v.1 = none →
    p.includes.openAt sp fs v.2 v.1 = .ok o →
    (p.includes.add v.1 o).find? v.1 = some o.included →
    Acts sp fs p v [] { p with includes := p.includes.add v.1 o, log := p.log ++ o.events }
  | committed {c : Commit} :
    c.Own sp fs v → c.item.kind = .branch ∨ c.item.kind = .set → c.before = p.store →
    Acts sp fs p v [c.item.key] { p with store := c.after }
  | deleted {deleted : List String} {store : Settings} :
    v.2.kindAt v.1 = .ok .reset → Clears v.2 v.1 p.store deleted store → deleted ≠ [] →
    Acts sp fs p v deleted { p with store := store, log := p.log ++ deletions v.1 deleted }
  | reset {deleted : List String} {c : Commit} :
    c.Own sp fs v → c.item.kind = .reset → Clears v.2 v.1 p.store deleted c.before →
    Acts sp fs p v (deleted ++ [c.item.key])
      { p with store := c.after, log := p.log ++ deletions v.1 deleted }

section Acting

variable {n : Node} {place : WalkPath} {p q : Progress} {v : WalkPath × Node} {touched : List String}

theorem Acts.changesAt (h : Acts sp fs p v touched q) : p.store.ChangesAt q.store touched := by
  cases h with
  | opened => exact .refl _
  | committed hown _ hbefore =>
    rw [← hbefore]
    exact Settings.write_changesAt hown.write
  | deleted _ hclears => exact hclears.deletes.changesAt
  | reset hown _ hclears => exact hclears.deletes.changesAt.trans (Settings.write_changesAt hown.write)

theorem Acts.includes (h : Acts sp fs p v touched q) {other : WalkPath} (ho : other ≠ v.1) :
    q.includes.find? other = p.includes.find? other := by
  cases h with
  | opened => exact IncludeCache.find?_add_of_ne ho _
  | committed => rfl
  | deleted => rfl
  | reset => rfl

theorem deletes_of_clearedKeys {keys deleted : List String} {s t : Settings}
    (h : clearedKeys n place keys s = (.ok deleted, t)) : s.Deletes deleted t := by
  induction keys generalizing s deleted with
  | nil =>
    obtain ⟨hd, rfl⟩ := Prod.mk.inj h
    obtain rfl := Except.ok.inj hd
    exact .nil
  | cons key rest ih =>
    unfold clearedKeys at h
    cases hk : n.storeKey .reset place (some key) s with
    | error e => simp [hk] at h
    | ok key =>
      by_cases hc : s.contains key = true
      · cases hd : s.delete key with
        | error e => simp [hk, hc, hd] at h
        | ok taken =>
          simp only [hk, hc, hd, if_true] at h
          obtain ⟨hr, rfl⟩ := Prod.mk.inj h
          obtain ⟨more, hmore, rfl⟩ := map_eq_ok.mp hr
          exact .cons hd (ih (Prod.ext hmore rfl))
      · simp only [hk, hc] at h
        exact ih h

theorem deletes_of_clearedMatching {pattern : Pattern} {keys deleted : List String} {s t : Settings}
    (h : clearedMatching pattern keys s = (.ok deleted, t)) : s.Deletes deleted t := by
  induction keys generalizing s deleted with
  | nil =>
    obtain ⟨hd, rfl⟩ := Prod.mk.inj h
    obtain rfl := Except.ok.inj hd
    exact .nil
  | cons key rest ih =>
    unfold clearedMatching at h
    by_cases hm : pattern.matchesAtStart key = true
    · cases hd : s.delete key with
      | error e => simp [hm, hd] at h
      | ok taken =>
        simp only [hm, hd, if_true] at h
        obtain ⟨hr, rfl⟩ := Prod.mk.inj h
        obtain ⟨more, hmore, rfl⟩ := map_eq_ok.mp hr
        exact .cons hd (ih (Prod.ext hmore rfl))
    · simp only [hm] at h
      exact ih h

theorem clears_of_cleared {deleted : List String} {s t : Settings}
    (h : cleared n place s = (.ok deleted, t)) : Clears n place s deleted t := by
  have hdeletes : s.Deletes deleted t := by
    unfold cleared at h
    cases hk : n.resetKeys with
    | some keys => exact deletes_of_clearedKeys (by simpa only [hk] using h)
    | none =>
      cases hr : n.resetKeyRegexp with
      | none => simp [hk, hr] at h
      | some source =>
        cases hc : compilePattern source with
        | error e => simp [hk, hr, hc] at h
        | ok pattern => exact deletes_of_clearedMatching (by simpa only [hk, hr, hc] using h)
  exact ⟨h, hdeletes, hdeletes.gone⟩

theorem own_of_committed {kind : Kind} {s after : Settings} (hd : n.disabled = false)
    (hk : n.kindAt place = .ok kind)
    (h : committed? sp fs n kind place s = some (.ok (), after)) :
    ∃ item value, Commit.Own sp fs ⟨item, value, s, after⟩ (place, n) ∧ item.kind = kind := by
  rcases committed?_eq_some h with ⟨e, he, -⟩ | ⟨-, -, item, value, hr, -, hw⟩
  · cases he
  · obtain ⟨hkey, hkind, hplace⟩ := Item.resolve_eq_ok hr
    subst hkind
    exact ⟨item, value, ⟨⟨hd, hk, hplace, hkey⟩, hr, hw, Item.write_ok hw⟩, rfl⟩

theorem settled_ok {p q : Progress} {done : Except Error Unit × Settings} {outcome : Scan}
    (h : settled p place done = (.ok outcome, q)) :
    outcome = .restart place ∧ done = (.ok (), q.store) ∧ q = { p with store := done.2 } := by
  obtain ⟨r, store⟩ := done
  obtain ⟨ho, rfl⟩ := Prod.mk.inj h
  cases r with
  | error e => cases ho
  | ok u => exact ⟨(Except.ok.inj ho).symm, rfl, rfl⟩

theorem acts_of_resetStop? {outcome : Scan} (hd : n.disabled = false)
    (hk : n.kindAt place = .ok .reset) (h : resetStop? sp fs p place n = some (.ok outcome, q)) :
    outcome = .restart place ∧ ∃ touched, Acts sp fs p (place, n) touched q := by
  unfold resetStop? at h
  cases hc : cleared n place p.store with
  | mk r store =>
    rw [hc] at h
    have hclears {deleted : List String} (hr : r = .ok deleted) :
        Clears n place p.store deleted store := clears_of_cleared (by rw [hc, hr])
    cases r with
    | error e => cases (Prod.mk.inj (Option.some.inj h)).1
    | ok deleted =>
      cases deleted with
      | nil =>
        -- Nothing is reported of a reset that only commits its value.
        obtain rfl : store = p.store := by
          have hs := cleared_store (congrArg Prod.fst hc)
          rwa [hc] at hs
        obtain ⟨done, hdone, hs⟩ := Option.map_eq_some_iff.mp h
        obtain ⟨ho, rfl, hq⟩ := settled_ok hs
        obtain ⟨item, value, hown, hkind⟩ := own_of_committed hd hk hdone
        have hlog : p.log ++ deletions place [] = p.log := List.append_nil _
        have hacts := Acts.reset hown hkind (hclears rfl)
        rw [hlog] at hacts
        rw [hq]
        exact ⟨ho, _, hacts⟩
      | cons key rest =>
        dsimp only at h
        cases hcommit : committed? sp fs n .reset place store with
        | none =>
          rw [hcommit] at h
          obtain ⟨ho, rfl⟩ := Prod.mk.inj (Option.some.inj h)
          exact ⟨(Except.ok.inj ho).symm, _, .deleted hk (hclears rfl) (List.cons_ne_nil key rest)⟩
        | some done =>
          rw [hcommit] at h
          obtain ⟨ho, rfl, hq⟩ := settled_ok (Option.some.inj h)
          obtain ⟨item, value, hown, hkind⟩ := own_of_committed hd hk hcommit
          rw [hq]
          exact ⟨ho, _, .reset hown hkind (hclears rfl)⟩

/-- Where a pass is to start again, the node that it ended at has acted. -/
theorem acts_of_stop? {at_ : WalkPath} (hd : n.disabled = false)
    (h : stop? sp fs p place n = some (.ok (.restart at_), q)) :
    at_ = place ∧ ∃ touched, Acts sp fs p (place, n) touched q := by
  cases halt_of_stop? h with
  | @committed kind item value after hk hkind _ hr _ hw =>
    obtain ⟨hkey, rfl, hplace⟩ := Item.resolve_eq_ok hr
    exact ⟨rfl, _, .committed (c := ⟨item, value, p.store, after⟩)
      ⟨⟨hd, hk, hplace, hkey⟩, hr, hw, Item.write_ok hw⟩ hkind rfl⟩
  | opened hk hc ho =>
    have hnone := IncludeCache.find?_eq_none.mpr hc
    exact ⟨rfl, _, .opened hk hnone ho (IncludeCache.find?_add_self hc)⟩
  | reset hk =>
    have hreset : resetStop? sp fs p place n = some (.ok (.restart at_), q) := by
      simpa only [stop?, hk] using h
    obtain ⟨ho, hacts⟩ := acts_of_resetStop? hd hk hreset
    exact ⟨Scan.restart.inj ho, hacts⟩

end Acting

/-- How a pass ends that ended well, by the nodes that were still to be visited: there are none, or the
first of them asks for a value, or it acts. -/
inductive Ends (sp : SearchPath) (fs : FileSystem) (p : Progress) :
    List (WalkPath × Node) → Scan → List String → Progress → Prop
  | exhausted : Ends sp fs p [] .exhausted [] p
  | found {item : Item} {n : Node} {rest : List (WalkPath × Node)} :
    Asks p.store (item.place, n) item → Ends sp fs p ((item.place, n) :: rest) (.found item) [] p
  | restart {place : WalkPath} {n : Node} {rest : List (WalkPath × Node)} {touched : List String}
      {q : Progress} :
    n.disabled = false → Acts sp fs p (place, n) touched q →
    Ends sp fs p ((place, n) :: rest) (.restart place) touched q

structure Effect (sp : SearchPath) (fs : FileSystem) (doc : List Node) (p : Progress) (outcome : Scan)
    (q : Progress) (visited todo : List (WalkPath × Node)) (commits : List Commit) (mid : Progress)
    (touched : List String) : Prop where
  visits : Visits sp fs (placed [] 0 doc) p visited commits todo mid
  inOrder : (visited ++ todo).Sublist (tree p.includes doc)
  updates : List.Forall₂ Commit.By commits (visited.filter isUpdate)
  chain : Commit.Chain p.store commits mid.store
  storeOnly : mid = { p with store := mid.store }
  ends : Ends sp fs mid todo outcome touched q
  store : p.store.ChangesAt q.store (commits.map (·.item.key) ++ touched)
  includes : ∀ place, outcome ≠ .restart place → q.includes.find? place = p.includes.find? place

theorem Ends.changesAt {p q : Progress} {todo : List (WalkPath × Node)} {outcome : Scan}
    {touched : List String} (h : Ends sp fs p todo outcome touched q) :
    p.store.ChangesAt q.store touched := by
  cases h with
  | exhausted => exact .refl _
  | found => exact .refl _
  | restart _ hacts => exact hacts.changesAt

theorem Ends.includes {p q : Progress} {todo : List (WalkPath × Node)} {outcome : Scan}
    {touched : List String} (h : Ends sp fs p todo outcome touched q) {place : WalkPath}
    (hp : outcome ≠ .restart place) : q.includes.find? place = p.includes.find? place := by
  cases h with
  | exhausted => rfl
  | found => rfl
  | restart _ hacts => exact hacts.includes fun he => hp (by rw [he])

theorem ends_of_stop? {n : Node} {place : WalkPath} {p q : Progress} {outcome : Scan}
    (hd : n.disabled = false) (h : stop? sp fs p place n = some (.ok outcome, q))
    (rest : List (WalkPath × Node)) :
    ∃ touched, Ends sp fs p ((place, n) :: rest) outcome touched q := by
  cases outcome with
  | exhausted => exact absurd h stop?_ne_exhausted
  | found item =>
    obtain ⟨rfl, rfl, hk, hi, hkey, hs, hdue⟩ := stop?_found h
    exact ⟨_, .found ⟨hd, hk, hi, rfl, hkey, hs, hdue⟩⟩
  | restart at_ =>
    obtain ⟨rfl, touched, hacts⟩ := acts_of_stop? hd h
    exact ⟨touched, .restart hd hacts⟩

/-- A pass that finds an item or is exhausted leaves the include cache alone, and the store as the commits
of the updates that it visited make it, in their order. If it starts again, the node there is the only
other one with an effect: it opened its include, or committed its value, or it is a reset that deleted its
targets, committed its value or did both. Nothing else is changed. -/
theorem scan_effect {doc : List Node} {p q : Progress} {outcome : Scan}
    (h : (scan sp fs doc).exec p = (.ok outcome, q)) :
    ∃ visited todo commits mid touched,
      Effect sp fs doc p outcome q visited todo commits mid touched := by
  rw [exec_scan] at h
  have hreach := reaches_scanFrom [] 0 doc rfl h []
  rw [List.append_nil] at hreach
  have hend : ∃ visited todo commits mid touched,
      Visits sp fs (placed [] 0 doc) p visited commits todo mid ∧
        Ends sp fs mid todo outcome touched q := by
    cases hreach with
    | through hv => exact ⟨_, _, _, _, _, hv, .exhausted⟩
    | halted hv hd hs =>
      obtain ⟨touched, hends⟩ := ends_of_stop? hd hs _
      exact ⟨_, _, _, _, touched, hv, hends⟩
  obtain ⟨visited, todo, commits, mid, touched, hv, hends⟩ := hend
  have hmid := hv.progress_eq
  have horder : (visited ++ todo).Sublist (tree p.includes doc) := by
    rw [tree_eq, ← opened_placed]
    exact hv.sublist
  refine ⟨visited, todo, commits, mid, touched, hv, horder, hv.updates, hv.chain, hmid, hends, ?_, ?_⟩
  · exact hv.chain.changesAt.trans hends.changesAt
  · intro place hp
    rw [hends.includes hp, hmid]

/-- A set after an update: the update has counted, and the set has ended the pass. -/
def counting : List Node :=
  [{ kind := some "update", key := some "n" },
    { kind := some "set", key := some "a", value := some (.str "x") }]

/-- An include after an update: here the include has ended the pass. -/
def opening : List Node := [{ kind := some "update", key := some "n" }, loneInclude]

theorem scan_effect_of_counting :
    let p : Progress := ⟨.empty, .empty, []⟩
    let q : Progress := ⟨⟨[("n", .int 1), ("a", .str "x")]⟩, .empty, []⟩
    let r : Progress := ⟨⟨[("n", .int 1)]⟩, loneCache [1], [.included "/a.json" 0 [1]]⟩
    ((scan .none ⟨[], []⟩ counting).exec p = (.ok (.restart [1]), q) ∧
      ∃ visited todo commits mid touched,
        Effect .none ⟨[], []⟩ counting p (.restart [1]) q visited todo commits mid touched) ∧
    ((scan .none loneFile opening).exec p = (.ok (.restart [1]), r) ∧
      r.includes.find? [1] = some ⟨"/a.json", []⟩ ∧
      ∃ visited todo commits mid touched,
        Effect .none loneFile opening p (.restart [1]) r visited todo commits mid touched) := by
  intro p q r
  have hscan : (scan .none ⟨[], []⟩ counting).exec p = (.ok (.restart [1]), q) := rfl
  have hcounts : (scanAt .none loneFile .empty [0] { kind := some "update", key := some "n" }).exec p =
      (.ok .exhausted, ⟨⟨[("n", .int 1)]⟩, .empty, []⟩) := rfl
  have hopens : (scan .none loneFile opening).exec p = (.ok (.restart [1]), r) := by
    rw [exec_scan, opening, exec_scanFrom_cons, List.nil_append, hcounts]
    dsimp only
    rw [exec_scanFrom_cons, List.nil_append, exec_scanAt_loneFile]
    rfl
  exact ⟨⟨hscan, scan_effect hscan⟩, hopens, rfl, scan_effect hopens⟩

end Walk
end Interview
