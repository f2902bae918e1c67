import Interview.Proofs.Item.Resolution
import Interview.Proofs.Walk.Unfolding

/-! Passes by the nodes that they meet. The nodes on the way of a pass are given by the document, the
cache and the store alone, and the pass ends as the first of them has it that is faulty, changes something
or asks for a value. -/

namespace Interview

/-- A node among others, or at any depth among the nodes that they are written with. -/
inductive Node.Within (n : Node) : List Node → Prop
  | here {nodes : List Node} : n ∈ nodes → Within n nodes
  | nested {nodes inner : List Node} {m : Node} :
    m ∈ nodes → m.interview = some inner → Within n inner → Within n nodes

theorem Node.not_within_nil {n : Node} : ¬ n.Within [] := by
  rintro (h | ⟨h, _, _⟩)
  · cases h
  · cases h

theorem Node.Within.mono {n : Node} {nodes more : List Node} (h : n.Within nodes)
    (hs : ∀ m ∈ nodes, m ∈ more) : n.Within more := by
  cases h with
  | here h => exact .here (hs n h)
  | nested hm hi h => exact .nested (hs _ hm) hi h

theorem Kind.ofName?_eq_some {s : String} {k : Kind} (h : ofName? s = some k) : s = k.name := by
  have hk := List.find?_some h
  exact (beq_iff_eq.mp hk).symm

theorem Node.kind_of_kindAt {n : Node} {place : WalkPath} {kind : Kind}
    (h : n.kindAt place = .ok kind) : n.kind = some kind.name := by
  obtain ⟨name, hn, hk⟩ := Option.bind_eq_some_iff.mp (Node.kindAt_eq_ok.mp h)
  rw [hn, Kind.ofName?_eq_some hk]

theorem Node.kind_ne_of_kindAt {n : Node} {place : WalkPath} {kind : Kind}
    (h : n.kindAt place ≠ .ok kind) : n.kind ≠ some kind.name := by
  intro hk
  refine h (Node.kindAt_eq_ok.mpr ?_)
  rw [hk]
  exact Kind.ofName?_name kind

namespace Walk

/-- The nodes that a pass goes on to right below a node. -/
def entered (cache : IncludeCache) (store : Settings) (place : WalkPath) (n : Node) : List Node :=
  match n.kindAt place with
  | .ok .branch =>
    match matched n place store with
    | .ok true => n.interview.getD []
    | _ => []
  | .ok .inclusion => (cache.nodes? place).getD []
  | _ => []

/-- The way of a pass over the nodes below a place, from the node with some index on: enabled nodes in
the order of the document, each before those that it leads to. -/
inductive Route (cache : IncludeCache) (store : Settings) :
    WalkPath → Nat → List Node → List (WalkPath × Node) → Prop
  | done {parent : WalkPath} {index : Nat} : Route cache store parent index [] []
  | skip {parent : WalkPath} {index : Nat} {n : Node} {rest : List Node}
      {after : List (WalkPath × Node)} :
    n.disabled = true → Route cache store parent (index + 1) rest after →
    Route cache store parent index (n :: rest) after
  | visit {parent : WalkPath} {index : Nat} {n : Node} {rest : List Node}
      {inner after : List (WalkPath × Node)} :
    n.disabled = false →
    Route cache store (parent ++ [index]) 0 (entered cache store (parent ++ [index]) n) inner →
    Route cache store parent (index + 1) rest after →
    Route cache store parent index (n :: rest) ((parent ++ [index], n) :: (inner ++ after))

/-- A commit ends the pass where it was made, or with its error. -/
def settled (p : Progress) (place : WalkPath) (done : Except Error Unit × Settings) :
    Except Error Scan × Progress :=
  (done.1.map fun _ => .restart place, { p with store := done.2 })

/-- How a pass ends at a reset, if it does: the commit of its own value comes after the deletions and
sees what they left. -/
def resetStop? (sp : SearchPath) (fs : FileSystem) (p : Progress) (place : WalkPath) (n : Node) :
    Option (Except Error Scan × Progress) :=
  match cleared n place p.store with
  | (.error e, store) => some (.error e, { p with store := store })
  | (.ok [], _) => (committed? sp fs n .reset place p.store).map (settled p place)
  | (.ok deleted, store) =>
    let p := { p with store := store, log := p.log ++ [.deleted place deleted] }
    match committed? sp fs n .reset place store with
    | none => some (.ok (.restart place), p)
    | some done => some (settled p place done)

/-- How a pass ends at a node, if it does. -/
def stop? (sp : SearchPath) (fs : FileSystem) (p : Progress) (place : WalkPath) (n : Node) :
    Option (Except Error Scan × Progress) :=
  match n.kindAt place with
  | .error e => some (.error e, p)
  | .ok .branch =>
    match matched n place p.store with
    | .error e => some (.error e, p)
    | .ok false => none
    | .ok true => (committed? sp fs n .branch place p.store).map (settled p place)
  | .ok .inclusion =>
    match p.includes.nodes? place with
    | some _ => none
    | none =>
      match p.includes.openAt sp fs n place with
      | .error e => some (.error e, p)
      | .ok o =>
        some (.ok (.restart place),
          { p with includes := p.includes.add place o, log := p.log ++ o.events })
  | .ok .set => (committed? sp fs n .set place p.store).map (settled p place)
  | .ok .reset => resetStop? sp fs p place n
  | .ok .update => none
  | .ok .notice => (asked? sp fs n .notice place p.store).map fun item => (item.map .found, p)
  | .ok .question => (asked? sp fs n .question place p.store).map fun item => (item.map .found, p)

theorem clearedKeys_nil_iff {n : Node} {place : WalkPath} {keys : List String} {store : Settings} :
    (clearedKeys n place keys store).1 = .ok [] ↔
      ∀ key ∈ keys, ∃ k, n.storeKey .reset place (some key) store = .ok k ∧
        store.contains k = false := by
  induction keys with
  | nil => simp [clearedKeys]
  | cons key rest ih =>
    simp only [clearedKeys, List.forall_mem_cons]
    cases hk : n.storeKey .reset place (some key) store with
    | error e => simp
    | ok k =>
      by_cases hc : store.contains k = true
      · simp only [hc, if_true]
        cases hd : store.delete k with
        | error e => simp [hc]
        | ok r => cases h : (clearedKeys n place rest r.2).1 <;> simp [Except.map, h, hc]
      · simp [hc, ih]

theorem clearedMatching_nil_iff {pattern : Pattern} {keys : List String} {store : Settings} :
    (clearedMatching pattern keys store).1 = .ok [] ↔
      ∀ key ∈ keys, pattern.matchesAtStart key = false := by
  induction keys with
  | nil => simp [clearedMatching]
  | cons key rest ih =>
    simp only [clearedMatching, List.forall_mem_cons]
    by_cases hm : pattern.matchesAtStart key = true
    · simp only [hm, if_true]
      cases hd : store.delete key with
      | error e => simp
      | ok r => cases h : (clearedMatching pattern rest r.2).1 <;> simp [Except.map, h]
    · simp [hm, ih]

theorem clearedKeys_store {n : Node} {place : WalkPath} {keys : List String} {store : Settings}
    (h : (clearedKeys n place keys store).1 = .ok []) :
    (clearedKeys n place keys store).2 = store := by
  induction keys with
  | nil => rfl
  | cons key rest ih =>
    obtain ⟨⟨k, hk, hc⟩, hrest⟩ := List.forall_mem_cons.mp (clearedKeys_nil_iff.mp h)
    simp only [clearedKeys, hk, hc, Bool.false_eq_true, if_false]
    exact ih (clearedKeys_nil_iff.mpr hrest)

theorem clearedMatching_store {pattern : Pattern} {keys : List String} {store : Settings}
    (h : (clearedMatching pattern keys store).1 = .ok []) :
    (clearedMatching pattern keys store).2 = store := by
  induction keys with
  | nil => rfl
  | cons key rest ih =>
    obtain ⟨hm, hrest⟩ := List.forall_mem_cons.mp (clearedMatching_nil_iff.mp h)
    simp only [clearedMatching, hm, Bool.false_eq_true, if_false]
    exact ih (clearedMatching_nil_iff.mpr hrest)

theorem cleared_store {n : Node} {place : WalkPath} {store : Settings}
    (h : (cleared n place store).1 = .ok []) : (cleared n place store).2 = store := by
  unfold cleared at h ⊢
  cases hk : n.resetKeys with
  | some keys => simpa only [hk] using clearedKeys_store (by simpa only [hk] using h)
  | none =>
    cases hr : n.resetKeyRegexp with
    | none => rfl
    | some source =>
      simp only [hk, hr] at h ⊢
      cases hc : compilePattern source with
      | error e => rfl
      | ok pattern =>
        simp only [hc] at h
        exact clearedMatching_store h

theorem exec_keyedCommit_bind {sp : SearchPath} {fs : FileSystem} {n : Node} {kind : Kind}
    {place : WalkPath} {f : Bool → Walk Scan} (hf : f true = pure (.restart place)) (p : Progress) :
    (keyedCommit sp fs n kind place >>= f).exec p =
      ((committed? sp fs n kind place p.store).map (settled p place)).getD ((f false).exec p) := by
  rw [exec_bind, exec_keyedCommit]
  cases committed? sp fs n kind place p.store with
  | none => rfl
  | some done =>
    obtain ⟨r, store⟩ := done
    cases r with
    | error e => rfl
    | ok u =>
      simp only [hf]
      rfl

theorem exec_reset (sp : SearchPath) (fs : FileSystem) (n : Node) (place : WalkPath) (p : Progress) :
    (reset sp fs n place).exec p =
      (resetStop? sp fs p place n).getD (.ok .exhausted, p) := by
  unfold reset resetStop?
  rw [exec_bind, exec_deleteTargets]
  cases hc : cleared n place p.store with
  | mk r store =>
    cases r with
    | error e => rfl
    | ok deleted =>
      cases deleted with
      | nil =>
        have hs : store = p.store := by
          have h := cleared_store (congrArg Prod.fst hc)
          rwa [hc] at h
        subst hs
        simp only [List.isEmpty_nil, Bool.not_true, Bool.false_eq_true, if_false]
        exact exec_keyedCommit_bind rfl p
      | cons key rest =>
        simp only [List.isEmpty_cons, Bool.not_false, if_true]
        rw [exec_bind, exec_report]
        dsimp only
        rw [exec_keyedCommit_bind rfl]
        cases committed? sp fs n .reset place store <;> rfl

variable {sp : SearchPath} {fs : FileSystem}

/-- An enabled node ends the pass as it has it, or lets it on to the nodes below. -/
theorem exec_scanAt {n : Node} (he : n.disabled = false) (hu : n.kind ≠ some Kind.update.name)
    (place : WalkPath) (p : Progress) :
    (scanAt sp fs p.includes place n).exec p =
      match stop? sp fs p place n with
      | some stopped => stopped
      | none =>
        (scanFrom sp fs p.includes place 0 (entered p.includes p.store place n)).exec p := by
  rw [scanAt_enabled he, exec_bind, exec_lift]
  unfold stop? entered
  cases hk : n.kindAt place with
  | error e => rfl
  | ok kind =>
    cases kind with
    | branch =>
      simp only [exec_bind, exec_branchMatches]
      cases hm : matched n place p.store with
      | error e => rfl
      | ok admitted =>
        cases admitted with
        | false => simp [exec_scanFrom_nil]
        | true =>
          simp only [Bool.not_true, Bool.false_eq_true, if_false]
          rw [exec_keyedCommit_bind rfl]
          cases committed? sp fs n .branch place p.store <;> rfl
    | inclusion =>
      simp only
      cases hc : p.includes.nodes? place with
      | some nodes => rfl
      | none =>
        simp only [exec_bind, exec_discard, exec_openInclude]
        cases ho : p.includes.openAt sp fs n place <;> rfl
    | set =>
      simp only [exec_scanFrom_nil]
      rw [exec_keyedCommit_bind rfl]
      cases committed? sp fs n .set place p.store <;> rfl
    | reset =>
      simp only [exec_reset, exec_scanFrom_nil]
      cases resetStop? sp fs p place n <;> rfl
    | update => exact absurd (Node.kind_of_kindAt hk) hu
    | notice =>
      simp only [exec_interactive, exec_scanFrom_nil]
      cases asked? sp fs n .notice place p.store <;> rfl
    | question =>
      simp only [exec_interactive, exec_scanFrom_nil]
      cases asked? sp fs n .question place p.store <;> rfl

theorem entered_cases (cache : IncludeCache) (store : Settings) (place : WalkPath) (n : Node) :
    entered cache store place n = [] ∨
      n.interview = some (entered cache store place n) ∨
      cache.nodes? place = some (entered cache store place n) := by
  unfold entered
  split
  · split
    · cases n.interview <;> simp
    · exact .inl rfl
  · cases cache.nodes? place <;> simp
  · exact .inl rfl

namespace Route

variable {cache : IncludeCache} {store : Settings} {parent : WalkPath} {index : Nat}
  {nodes : List Node} {route : List (WalkPath × Node)}

theorem unique {other : List (WalkPath × Node)} (h : Route cache store parent index nodes route)
    (ho : Route cache store parent index nodes other) : other = route := by
  induction h generalizing other with
  | done => cases ho; rfl
  | skip hd _ ih =>
    cases ho with
    | skip _ ho => exact ih ho
    | visit he _ _ => simp [he] at hd
  | visit he _ _ ihi iha =>
    cases ho with
    | skip hd _ => simp [he] at hd
    | visit _ hi ha => rw [ihi hi, iha ha]

/-- Every pass has a way: going down it takes a cached place, or nodes written further inside. -/
theorem exists_route (cache : IncludeCache) (store : Settings) (parent : WalkPath) (index : Nat)
    (nodes : List Node) : ∃ route, Route cache store parent index nodes route := by
  cases nodes with
  | nil => exact ⟨[], .done⟩
  | cons n rest =>
    obtain ⟨after, ha⟩ := exists_route cache store parent (index + 1) rest
    cases hd : n.disabled with
    | true => exact ⟨after, .skip hd ha⟩
    | false =>
      have hi : ∃ inner, Route cache store (parent ++ [index]) 0
          (entered cache store (parent ++ [index]) n) inner := by
        rcases entered_cases cache store (parent ++ [index]) n with hn | hn | hn
        · exact ⟨[], by rw [hn]; exact .done⟩
        · have hs := Node.sizeOf_interview hn
          exact exists_route cache store (parent ++ [index]) 0 _
        · have hb := IncludeCache.beyond_lt hn
          exact exists_route cache store (parent ++ [index]) 0 _
      obtain ⟨inner, hi⟩ := hi
      exact ⟨_, .visit hd hi ha⟩
termination_by (cache.beyond (parent.length + 1), sizeOf nodes)
decreasing_by
  · refine Prod.Lex.right _ ?_
    simp only [List.cons.sizeOf_spec]
    omega
  · refine Prod.Lex.right' _ (cache.beyond_anti (by simp)) ?_
    simp only [List.cons.sizeOf_spec]
    omega
  · refine Prod.Lex.left _ _ ?_
    simpa only [List.length_append, List.length_singleton] using hb

theorem mem_within (h : Route cache store parent index nodes route) {place : WalkPath} {n : Node}
    (hv : (place, n) ∈ route) :
    n.disabled = false ∧
      (n.Within nodes ∨ ∃ at_ inner, cache.nodes? at_ = some inner ∧ n.Within inner) := by
  induction h with
  | done => cases hv
  | skip _ _ ih =>
    obtain ⟨he, hw | hw⟩ := ih hv
    · exact ⟨he, .inl (hw.mono fun m hm => List.mem_cons_of_mem _ hm)⟩
    · exact ⟨he, .inr hw⟩
  | @visit parent index m rest inner after hd hi ha ihi iha =>
    rcases List.mem_cons.mp hv with hv | hv
    · obtain ⟨rfl, rfl⟩ := Prod.mk.inj hv
      exact ⟨hd, .inl (.here (by simp))⟩
    rcases List.mem_append.mp hv with hv | hv
    · obtain ⟨he, hw | hw⟩ := ihi hv
      · refine ⟨he, ?_⟩
        rcases entered_cases cache store (parent ++ [index]) m with hn | hn | hn
        · rw [hn] at hw
          exact absurd hw Node.not_within_nil
        · exact .inl (.nested (by simp) hn hw)
        · exact .inr ⟨_, _, hn, hw⟩
      · exact ⟨he, .inr hw⟩
    · obtain ⟨he, hw | hw⟩ := iha hv
      · exact ⟨he, .inl (hw.mono fun m hm => List.mem_cons_of_mem _ hm)⟩
      · exact ⟨he, .inr hw⟩

end Route

theorem settled_eq_ok {p q : Progress} {place : WalkPath} {done : Except Error Unit × Settings}
    {s : Scan} (h : settled p place done = (.ok s, q)) : s = .restart place := by
  obtain ⟨r, store⟩ := done
  cases r with
  | error e => simp [settled, Except.map] at h
  | ok u =>
    simp only [settled, Except.map, Prod.mk.injEq, Except.ok.injEq] at h
    exact h.1.symm

theorem map_settled_eq_ok {p q : Progress} {place : WalkPath}
    {done : Option (Except Error Unit × Settings)} {s : Scan}
    (h : done.map (settled p place) = some (.ok s, q)) : s = .restart place := by
  obtain ⟨done, -, hd⟩ := Option.map_eq_some_iff.mp h
  exact settled_eq_ok hd

theorem resetStop?_eq_ok {p q : Progress} {place : WalkPath} {n : Node} {s : Scan}
    (h : resetStop? sp fs p place n = some (.ok s, q)) : s = .restart place := by
  unfold resetStop? at h
  split at h
  · simp at h
  · exact map_settled_eq_ok h
  · split at h
    · simp only [Option.some.injEq, Prod.mk.injEq, Except.ok.injEq] at h
      exact h.1.symm
    · exact settled_eq_ok (Option.some.inj h)

/-- A node ends a pass well in one of two ways: the pass starts again, or the node asks for a value and
nothing has changed. -/
theorem stop?_eq_ok {p q : Progress} {place : WalkPath} {n : Node} {s : Scan}
    (h : stop? sp fs p place n = some (.ok s, q)) :
    s = .restart place ∨
      ∃ kind item, n.kindAt place = .ok kind ∧ kind.isInteractive = true ∧
        asked? sp fs n kind place p.store = some (.ok item) ∧ s = .found item ∧ q = p := by
  have ha {kind : Kind} (hk : n.kindAt place = .ok kind) (hasks : kind.isInteractive = true)
      (h : (asked? sp fs n kind place p.store).map (fun item => (item.map Scan.found, p)) =
        some (.ok s, q)) :
      ∃ kind item, n.kindAt place = .ok kind ∧ kind.isInteractive = true ∧
        asked? sp fs n kind place p.store = some (.ok item) ∧ s = .found item ∧ q = p := by
    obtain ⟨r, hr, he⟩ := Option.map_eq_some_iff.mp h
    obtain ⟨hf, rfl⟩ := Prod.mk.inj he
    obtain ⟨item, rfl, rfl⟩ := map_eq_ok.mp hf
    exact ⟨kind, item, hk, hasks, hr, rfl, rfl⟩
  unfold stop? at h
  cases hk : n.kindAt place with
  | error e => simp [hk] at h
  | ok kind =>
    rw [hk] at h
    cases kind with
    | branch =>
      cases hb : matched n place p.store with
      | error e => simp [hb] at h
      | ok admitted =>
        cases admitted with
        | false => simp [hb] at h
        | true => exact .inl (map_settled_eq_ok (by simpa only [hb] using h))
    | inclusion =>
      cases hc : p.includes.nodes? place with
      | some nodes => simp [hc] at h
      | none =>
        cases ho : p.includes.openAt sp fs n place with
        | error e => simp [hc, ho] at h
        | ok o =>
          simp only [hc, ho, Option.some.injEq, Prod.mk.injEq, Except.ok.injEq] at h
          exact .inl h.1.symm
    | set => exact .inl (map_settled_eq_ok h)
    | reset => exact .inl (resetStop?_eq_ok h)
    | update => simp at h
    | notice => exact .inr (by simpa only [hk] using ha hk rfl h)
    | question => exact .inr (by simpa only [hk] using ha hk rfl h)

theorem stop?_ne_exhausted {p q : Progress} {place : WalkPath} {n : Node} :
    stop? sp fs p place n ≠ some (.ok .exhausted, q) := by
  intro h
  rcases stop?_eq_ok h with hs | ⟨_, _, -, -, -, hs, -⟩ <;> cases hs

theorem resolve_of_asked? {n : Node} {kind : Kind} {place : WalkPath} {store : Settings} {item : Item}
    (h : asked? sp fs n kind place store = some (.ok item)) :
    n.key.isSome ∧ Item.resolve sp fs n kind place store = .ok item ∧
      isDue n store item.key = true := by
  unfold asked? at h
  cases hkey : n.key with
  | none => simp [hkey] at h
  | some own =>
    simp only [hkey, Option.isNone_some, Bool.false_eq_true, if_false] at h
    cases hk : n.storeKey kind place none store with
    | error e => simp [hk] at h
    | ok key =>
      simp only [hk] at h
      by_cases hd : isDue n store key = true
      · simp only [hd, if_true, Option.some.injEq] at h
        have hik := (Item.resolve_eq_ok h).1
        obtain rfl : key = item.key := by simpa [hk] using hik
        exact ⟨rfl, h, hd⟩
      · simp [hd] at h

theorem asked?_eq_ok {n : Node} {kind : Kind} {place : WalkPath} {store : Settings} {item : Item}
    (h : asked? sp fs n kind place store = some (.ok item)) :
    n.key.isSome ∧ n.storeKey kind place none store = .ok item.key ∧ isDue n store item.key = true ∧
      item.kind = kind ∧ item.place = place := by
  obtain ⟨hkey, hr, hd⟩ := resolve_of_asked? h
  obtain ⟨hk, hkind, hplace⟩ := Item.resolve_eq_ok hr
  exact ⟨hkey, hk, hd, hkind, hplace⟩

theorem stop?_found {p q : Progress} {place : WalkPath} {n : Node} {item : Item}
    (h : stop? sp fs p place n = some (.ok (.found item), q)) :
    q = p ∧ item.place = place ∧ n.kindAt place = .ok item.kind ∧ item.kind.isInteractive ∧
      n.key.isSome ∧ n.storeKey item.kind place none p.store = .ok item.key ∧
      isDue n p.store item.key = true := by
  rcases stop?_eq_ok h with hs | ⟨kind, asked, hk, hasks, ha, hs, hq⟩
  · cases hs
  · cases hs
    obtain ⟨hkey, hs, hd, rfl, hplace⟩ := asked?_eq_ok ha
    exact ⟨hq, hplace, hk, hasks, hkey, hs, hd⟩

theorem goes_on {stopped more : Option (Except Error Scan × Progress)} {p : Progress}
    {go : Progress → Except Error Scan × Progress}
    (h : ∀ q, stopped ≠ some (.ok .exhausted, q)) (hgo : go p = more.getD (.ok .exhausted, p)) :
    (match stopped.getD (.ok .exhausted, p) with
      | (.ok .exhausted, q) => go q
      | ended => ended) = (stopped.or more).getD (.ok .exhausted, p) := by
  cases stopped with
  | none => exact hgo
  | some ended =>
    obtain ⟨r, q⟩ := ended
    rcases r with e | scan
    · rfl
    · cases scan with
      | exhausted => exact absurd rfl (h q)
      | _ => rfl

theorem Route.exec_scanFrom {p : Progress} {parent : WalkPath} {index : Nat} {nodes : List Node}
    {route : List (WalkPath × Node)} (h : Route p.includes p.store parent index nodes route)
    (hu : ∀ v ∈ route, v.2.kind ≠ some Kind.update.name) :
    (scanFrom sp fs p.includes parent index nodes).exec p =
      (route.findSome? fun v => stop? sp fs p v.1 v.2).getD (.ok .exhausted, p) := by
  generalize hcache : p.includes = cache at h ⊢
  generalize hstore : p.store = store at h
  induction h with
  | done => exact exec_scanFrom_nil _ _ p
  | skip hd _ ih =>
    rw [exec_scanFrom_cons, scanAt_disabled hd]
    exact ih hu
  | @visit parent index n rest inner after hd hi ha ihi iha =>
    subst hcache hstore
    have hi := ihi fun v hv => hu v (by simp [hv])
    have ha := iha fun v hv => hu v (by simp [hv])
    have hn : (scanAt sp fs p.includes (parent ++ [index]) n).exec p =
        (((parent ++ [index], n) :: inner).findSome? fun v => stop? sp fs p v.1 v.2).getD
          (.ok .exhausted, p) := by
      rw [exec_scanAt hd (hu (parent ++ [index], n) (by simp)), List.findSome?_cons]
      cases stop? sp fs p (parent ++ [index]) n with
      | some ended => rfl
      | none => exact hi
    rw [exec_scanFrom_cons, hn, ← List.cons_append, List.findSome?_append]
    refine goes_on (fun q hq => ?_) ha
    obtain ⟨v, -, hv⟩ := List.exists_of_findSome?_eq_some hq
    exact stop?_ne_exhausted hv

theorem ends_exhausted_iff {p : Progress} {route : List (WalkPath × Node)} :
    ((route.findSome? fun v => stop? sp fs p v.1 v.2).getD (.ok .exhausted, p)).1 = .ok .exhausted ↔
      ∀ v ∈ route, stop? sp fs p v.1 v.2 = none := by
  rw [← List.findSome?_eq_none_iff]
  cases hf : route.findSome? fun v => stop? sp fs p v.1 v.2 with
  | none => simp
  | some ended =>
    obtain ⟨v, -, hv⟩ := List.exists_of_findSome?_eq_some hf
    obtain ⟨r, q⟩ := ended
    have hr : r ≠ .ok .exhausted := by
      rintro rfl
      exact stop?_ne_exhausted hv
    simpa using hr

theorem ends_found {p q : Progress} {route : List (WalkPath × Node)} {item : Item}
    (h : (route.findSome? fun v => stop? sp fs p v.1 v.2).getD (.ok .exhausted, p) =
      (.ok (.found item), q)) :
    q = p ∧ ∃ n, (item.place, n) ∈ route ∧ item.kind.isInteractive ∧ n.key.isSome ∧
      n.storeKey item.kind item.place none p.store = .ok item.key ∧
      (p.store.contains item.key = false ∨ n.force = true) := by
  cases hf : route.findSome? fun v => stop? sp fs p v.1 v.2 with
  | none => simp [hf] at h
  | some ended =>
    obtain ⟨⟨place, n⟩, hv, hstop⟩ := List.exists_of_findSome?_eq_some hf
    obtain rfl : ended = (.ok (.found item), q) := by simpa [hf] using h
    obtain ⟨hq, rfl, -, hi, hkey, hk, hdue⟩ := stop?_found hstop
    exact ⟨hq, n, hv, hi, hkey, hk, by simpa [isDue] using hdue⟩

/-- One pass over a document without enabled updates ends exactly as the first node on its way has it
that ends it, and is exhausted exactly if none does. An item that is found is found again as long as
nothing is written. -/
theorem scan_ends_at_first_stop (sp : SearchPath) (fs : FileSystem) {nodes : List Node} {p : Progress}
    (hd : ∀ n : Node, n.Within nodes → n.disabled = false → n.kind ≠ some Kind.update.name)
    (hc : ∀ place inner, p.includes.nodes? place = some inner →
      ∀ n : Node, n.Within inner → n.disabled = false → n.kind ≠ some Kind.update.name) :
    ∃ route, (∀ other, Route p.includes p.store [] 0 nodes other ↔ other = route) ∧
      (scan sp fs nodes).exec p =
        (route.findSome? fun v => stop? sp fs p v.1 v.2).getD (.ok .exhausted, p) ∧
      (((scan sp fs nodes).exec p).1 = .ok .exhausted ↔
        ∀ v ∈ route, stop? sp fs p v.1 v.2 = none) ∧
      ∀ item q, (scan sp fs nodes).exec p = (.ok (.found item), q) →
        (∃ n, (item.place, n) ∈ route ∧ item.kind.isInteractive ∧ n.key.isSome ∧
          n.storeKey item.kind item.place none p.store = .ok item.key ∧
          (p.store.contains item.key = false ∨ n.force = true)) ∧
        (scan sp fs nodes).exec q = (.ok (.found item), q) := by
  obtain ⟨route, hr⟩ := Route.exists_route p.includes p.store [] 0 nodes
  have hu : ∀ v ∈ route, v.2.kind ≠ some Kind.update.name := by
    intro v hv
    obtain ⟨he, hw | ⟨place, inner, hi, hw⟩⟩ := hr.mem_within (n := v.2) hv
    · exact hd v.2 hw he
    · exact hc place inner hi v.2 hw he
  have hs : (scan sp fs nodes).exec p =
      (route.findSome? fun v => stop? sp fs p v.1 v.2).getD (.ok .exhausted, p) :=
    (exec_scan nodes p).trans (hr.exec_scanFrom hu)
  refine ⟨route, fun other => ⟨fun ho => hr.unique ho, fun ho => ho ▸ hr⟩, hs, ?_, ?_⟩
  · rw [hs]
    exact ends_exhausted_iff
  · intro item q h
    obtain ⟨rfl, hfound⟩ := ends_found (hs ▸ h)
    exact ⟨hfound, h⟩

/-- A disabled update does not count. -/
theorem scan_asks_beside_disabled_update :
    ((scan .none ⟨[], []⟩
      [{ kind := some "update", disabled := true },
        { kind := some "question", key := some "name" }]).exec ⟨.empty, .empty, []⟩).1 ≠
      .ok .exhausted := by
  have hd : ∀ n : Node, n.Within [{ kind := some "update", disabled := true },
      { kind := some "question", key := some "name" }] → n.disabled = false →
      n.kind ≠ some Kind.update.name := by
    rintro n (h | ⟨hm, hi, -⟩) he
    · simp only [List.mem_cons, List.not_mem_nil, or_false] at h
      rcases h with rfl | rfl
      · simp at he
      · simp [Kind.name]
    · simp only [List.mem_cons, List.not_mem_nil, or_false] at hm
      rcases hm with rfl | rfl <;> simp at hi
  have hc : ∀ place inner, IncludeCache.empty.nodes? place = some inner →
      ∀ n : Node, n.Within inner → n.disabled = false → n.kind ≠ some Kind.update.name := by
    intro place inner h
    cases h
  obtain ⟨route, hr, -, he, -⟩ := scan_ends_at_first_stop .none ⟨[], []⟩ (p := ⟨.empty, .empty, []⟩) hd hc
  obtain rfl := (hr _).mp (.skip rfl (.visit rfl .done .done))
  intro h
  have hq := he.mp h _ List.mem_cons_self
  cases hq

end Walk
end Interview
