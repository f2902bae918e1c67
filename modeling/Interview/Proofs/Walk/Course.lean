import Interview.Proofs.Item.Acceptance
import Interview.Proofs.Settings.Keeping
import Interview.Proofs.Walk.FirstStop
import Interview.Proofs.Walk.Tree

/-! The course of a pass. On its way down the tree it commits updates, one after the other, until a node
ends it; nothing else happens before. -/

namespace Interview

structure Commit where
  item : Item
  value : Value
  before : Settings
  after : Settings

namespace Commit

inductive Chain : Settings → List Commit → Settings → Prop
  | nil {s : Settings} : Chain s [] s
  | cons {c : Commit} {rest : List Commit} {t : Settings} :
    c.before.write c.item.key c.value = (.ok (), c.after) → Chain c.after rest t →
    Chain c.before (c :: rest) t

theorem Chain.append {s t u : Settings} {commits later : List Commit} (h : Chain s commits t)
    (h' : Chain t later u) : Chain s (commits ++ later) u := by
  induction h with
  | nil => exact h'
  | cons hw _ ih => exact .cons hw (ih h')

/-- A commit of a node: the node is enabled, and the item has its kind, its place and its key. -/
structure By (c : Commit) (v : WalkPath × Node) : Prop where
  enabled : v.2.disabled = false
  kind : v.2.kindAt v.1 = .ok c.item.kind
  place : c.item.place = v.1
  key : v.2.storeKey c.item.kind v.1 none c.before = .ok c.item.key

theorem Chain.eq_of_nil {s t : Settings} (h : Chain s [] t) : t = s := by
  generalize hc : ([] : List Commit) = commits at h
  cases h with
  | nil => rfl
  | cons => cases hc

theorem Chain.write_of_mem {s t : Settings} {commits : List Commit} (h : Chain s commits t)
    {c : Commit} (hc : c ∈ commits) : c.before.write c.item.key c.value = (.ok (), c.after) := by
  induction h with
  | nil => cases hc
  | cons hw _ ih =>
    rcases List.mem_cons.mp hc with rfl | hc
    · exact hw
    · exact ih hc

end Commit

namespace Item

variable {item : Item} {store after : Settings} {given : Option Value}

theorem write_error {e : Error} (h : item.write store given = (.error e, after)) : after = store := by
  unfold write at h
  cases ha : item.accept given with
  | error e => simpa [ha, eq_comm] using congrArg Prod.snd h
  | ok w =>
    cases hw : store.write item.key w with
    | mk outcome next =>
      cases outcome with
      | ok u => simp [ha, hw] at h
      | error e =>
        obtain rfl : next = after := by simpa [ha, hw] using congrArg Prod.snd h
        exact Settings.write_error hw

theorem write_ok {w : Value} (h : item.write store given = (.ok w, after)) :
    store.write item.key w = (.ok (), after) :=
  (write_eq_ok.mp h).2

end Item

namespace Walk

variable {sp : SearchPath} {fs : FileSystem}

/-- The item of an update, and the total that is stored for it. -/
def raised (sp : SearchPath) (fs : FileSystem) (n : Node) (place : WalkPath) (store : Settings) :
    Except Error (Item × Int64) := do
  let item ← Item.resolve sp fs n .update place store
  let current ← currentCount item store
  let step ← stepOf n place
  match Number.toInt64? (current.toInt + step.toInt) with
  | some total => .ok (item, total)
  | none => .error (.invalidValue item.key .counterOverflow)

theorem exec_update (sp : SearchPath) (fs : FileSystem) (n : Node) (place : WalkPath) (p : Progress) :
    (update sp fs n place).exec p =
      match raised sp fs n place p.store with
      | .error e => (.error e, p)
      | .ok (item, total) =>
        ((item.write p.store (some (.int total))).1.map fun _ => .exhausted,
          { p with store := (item.write p.store (some (.int total))).2 }) := by
  unfold update raised
  simp only [exec_bind, exec_store, exec_lift]
  cases Item.resolve sp fs n .update place p.store with
  | error e => rfl
  | ok item =>
    dsimp only
    cases hc : currentCount item p.store with
    | error e => simp [bind, Except.bind, hc]
    | ok current =>
      cases hs : stepOf n place with
      | error e => simp [bind, Except.bind, hc]
      | ok step =>
        conv_rhs => simp only [bind, Except.bind, hc]
        dsimp only
        cases Number.toInt64? (current.toInt + step.toInt) with
        | none => rfl
        | some total =>
          simp only [exec_bind, exec_discard, exec_commit]
          cases item.write p.store (some (.int total)) with
          | mk r store => cases r <;> rfl

theorem resolve_of_raised {n : Node} {place : WalkPath} {store : Settings} {item : Item}
    {total : Int64} (h : raised sp fs n place store = .ok (item, total)) :
    Item.resolve sp fs n .update place store = .ok item ∧
      ∃ current, currentCount item store = .ok current := by
  obtain ⟨resolved, hr, h⟩ := bind_eq_ok.mp h
  obtain ⟨current, hc, h⟩ := bind_eq_ok.mp h
  obtain ⟨step, -, h⟩ := bind_eq_ok.mp h
  split at h
  · obtain rfl : resolved = item := congrArg Prod.fst (Except.ok.inj h)
    exact ⟨hr, current, hc⟩
  · cases h

theorem raised_eq_ok {n : Node} {place : WalkPath} {store : Settings} {item : Item} {total : Int64}
    (h : raised sp fs n place store = .ok (item, total)) :
    n.storeKey .update place none store = .ok item.key ∧ item.kind = .update ∧ item.place = place ∧
      ¬ store.HasTable item.key := by
  obtain ⟨hr, current, hc⟩ := resolve_of_raised h
  obtain ⟨hkey, hkind, hplace⟩ := Item.resolve_eq_ok hr
  refine ⟨hkey, hkind, hplace, ?_⟩
  rintro ⟨entries, he⟩
  simp [currentCount, he, Value.toInteger] at hc

/-- The course of a pass over nodes in the order of the document. Nodes may be left out: disabled ones,
those in branches that are not entered, and those that let the pass on without a trace. -/
inductive Course (sp : SearchPath) (fs : FileSystem) :
    List (WalkPath × Node) → Progress → List Commit → Except Error Scan × Progress → Prop
  | done {p : Progress} : Course sp fs [] p [] (.ok .exhausted, p)
  | pass {v : WalkPath × Node} {rest : List (WalkPath × Node)} {p : Progress} {commits : List Commit}
      {ending : Except Error Scan × Progress} :
    Course sp fs rest p commits ending → Course sp fs (v :: rest) p commits ending
  | count {v : WalkPath × Node} {rest : List (WalkPath × Node)} {p : Progress} {commits : List Commit}
      {ending : Except Error Scan × Progress} {item : Item} {total : Int64} {value : Value}
      {after : Settings} :
    v.2.disabled = false → v.2.kindAt v.1 = .ok .update →
    raised sp fs v.2 v.1 p.store = .ok (item, total) →
    item.write p.store (some (.int total)) = (.ok value, after) →
    Course sp fs rest { p with store := after } commits ending →
    Course sp fs (v :: rest) p (⟨item, value, p.store, after⟩ :: commits) ending
  | fail {v : WalkPath × Node} {rest : List (WalkPath × Node)} {p : Progress} {e : Error} :
    v.2.disabled = false → v.2.kindAt v.1 = .ok .update →
    (update sp fs v.2 v.1).exec p = (.error e, p) → Course sp fs (v :: rest) p [] (.error e, p)
  | stop {v : WalkPath × Node} {rest : List (WalkPath × Node)} {p : Progress}
      {ending : Except Error Scan × Progress} :
    v.2.disabled = false → stop? sp fs p v.1 v.2 = some ending → Course sp fs (v :: rest) p [] ending

namespace Course

variable {nodes more : List (WalkPath × Node)} {p q : Progress} {commits later : List Commit}
  {ending : Except Error Scan × Progress}

theorem skip_all (nodes : List (WalkPath × Node)) : Course sp fs nodes p [] (.ok .exhausted, p) := by
  induction nodes with
  | nil => exact .done
  | cons v rest ih => exact .pass ih

theorem append (h : Course sp fs nodes p commits ending) (he : ending = (.ok .exhausted, q))
    {final : Except Error Scan × Progress} (h' : Course sp fs more q later final) :
    Course sp fs (nodes ++ more) p (commits ++ later) final := by
  induction h with
  | done =>
    obtain rfl : _ = q := (Prod.mk.inj he).2
    exact h'
  | pass _ ih => exact .pass (ih he)
  | count hd hk hr hw _ ih => exact .count hd hk hr hw (ih he)
  | fail => cases (Prod.mk.inj he).1
  | stop _ hs => exact absurd (he ▸ hs) stop?_ne_exhausted

theorem extend (h : Course sp fs nodes p commits ending) (he : ending.1 ≠ .ok .exhausted)
    (more : List (WalkPath × Node)) : Course sp fs (nodes ++ more) p commits ending := by
  induction h with
  | done => exact absurd rfl he
  | pass _ ih => exact .pass (ih he)
  | count hd hk hr hw _ ih => exact .count hd hk hr hw (ih he)
  | fail hd hk hu => exact .fail hd hk hu
  | stop hd hs => exact .stop hd hs

/-- A pass commits updates, and then goes through, fails without a change, or is ended by a node. -/
theorem ends {r : Except Error Scan} (h : Course sp fs nodes p commits (r, q)) :
    ∃ store, Commit.Chain p.store commits store ∧
      (∀ c ∈ commits, c.item.kind = .update ∧ ¬ c.before.HasTable c.item.key ∧
        ∃ v ∈ nodes, c.By v) ∧
      ((r = .ok .exhausted ∧ q = { p with store := store }) ∨
        (∃ e, r = .error e ∧ q = { p with store := store }) ∨
        ∃ v ∈ nodes, v.2.disabled = false ∧
          stop? sp fs { p with store := store } v.1 v.2 = some (r, q)) := by
  generalize he : (r, q) = ending at h
  induction h with
  | done =>
    obtain ⟨rfl, rfl⟩ := Prod.mk.inj he
    exact ⟨_, .nil, by simp, .inl ⟨rfl, rfl⟩⟩
  | pass _ ih =>
    obtain ⟨store, hchain, hby, hend⟩ := ih he
    refine ⟨store, hchain, fun c hc => ?_, hend.imp_right (Or.imp_right ?_)⟩
    · obtain ⟨hk, ht, v, hv, hb⟩ := hby c hc
      exact ⟨hk, ht, v, List.mem_cons_of_mem _ hv, hb⟩
    · rintro ⟨v, hv, hs⟩
      exact ⟨v, List.mem_cons_of_mem _ hv, hs⟩
  | @count v rest p commits ending item total value after hd hk hr hw _ ih =>
    obtain ⟨store, hchain, hby, hend⟩ := ih he
    obtain ⟨hkey, hkind, hplace, htable⟩ := raised_eq_ok hr
    refine ⟨store, .cons (c := ⟨item, value, p.store, after⟩) (Item.write_ok hw) hchain,
      fun c hc => ?_, hend.imp_right (Or.imp_right ?_)⟩
    · rcases List.mem_cons.mp hc with rfl | hc
      · exact ⟨hkind, htable, v, List.mem_cons_self, hd, by rw [hk, hkind], hplace, by rw [hkind, hkey]⟩
      · obtain ⟨hk, ht, v, hv, hb⟩ := hby c hc
        exact ⟨hk, ht, v, List.mem_cons_of_mem _ hv, hb⟩
    · rintro ⟨v, hv, hs⟩
      exact ⟨v, List.mem_cons_of_mem _ hv, hs⟩
  | @fail v rest p e hd hk hu =>
    obtain ⟨rfl, rfl⟩ := Prod.mk.inj he
    exact ⟨_, .nil, by simp, .inr (.inl ⟨e, rfl, rfl⟩)⟩
  | @stop v rest p ending hd hs =>
    subst he
    exact ⟨_, .nil, by simp, .inr (.inr ⟨v, List.mem_cons_self, hd, hs⟩)⟩

theorem includes_of_exhausted (h : Course sp fs nodes p commits ending)
    (he : ending = (.ok .exhausted, q)) : q.includes = p.includes := by
  induction h with
  | done => exact congrArg Progress.includes (Prod.mk.inj he).2.symm
  | pass _ ih => exact ih he
  | count _ _ _ _ _ ih => exact ih he
  | fail => cases (Prod.mk.inj he).1
  | stop _ hs => exact absurd (he ▸ hs) stop?_ne_exhausted

end Course

/-- What happens where a node ends a pass. -/
inductive Halt (sp : SearchPath) (fs : FileSystem) (p : Progress) (place : WalkPath) (n : Node) :
    Except Error Scan → Progress → Prop
  | failed {e : Error} : Halt sp fs p place n (.error e) p
  | committed {kind : Kind} {item : Item} {value : Value} {after : Settings} :
    n.kindAt place = .ok kind → kind = .branch ∨ kind = .set → n.key.isSome →
    Item.resolve sp fs n kind place p.store = .ok item → isDue n p.store item.key = true →
    item.write p.store n.value = (.ok value, after) →
    Halt sp fs p place n (.ok (.restart place)) { p with store := after }
  | opened {o : IncludeCache.Opened} :
    n.kindAt place = .ok .inclusion → p.includes.nodes? place = none →
    p.includes.openAt sp fs n place = .ok o →
    Halt sp fs p place n (.ok (.restart place))
      { p with includes := p.includes.add place o, log := p.log ++ o.events }
  | asked {kind : Kind} {item : Item} :
    n.kindAt place = .ok kind → kind.isInteractive = true →
    asked? sp fs n kind place p.store = some (.ok item) → Halt sp fs p place n (.ok (.found item)) p
  | reset {r : Except Error Scan} {q : Progress} :
    n.kindAt place = .ok .reset → q.includes = p.includes → Halt sp fs p place n r q

section Halting

variable {n : Node} {kind : Kind} {place : WalkPath} {p q : Progress} {r : Except Error Scan}

theorem committed?_eq_some {store after : Settings} {done : Except Error Unit}
    (h : committed? sp fs n kind place store = some (done, after)) :
    (∃ e, done = .error e ∧ after = store) ∨
      (done = .ok () ∧ n.key.isSome ∧ ∃ item value,
        Item.resolve sp fs n kind place store = .ok item ∧ isDue n store item.key = true ∧
          item.write store n.value = (.ok value, after)) := by
  unfold committed? at h
  cases hkey : n.key with
  | none => simp [hkey] at h
  | some own =>
    simp only [hkey, Option.isNone_some, Bool.false_eq_true, if_false] at h
    cases hk : n.storeKey kind place none store with
    | error e =>
      simp only [hk, Option.some.injEq, Prod.mk.injEq] at h
      exact .inl ⟨e, h.1.symm, h.2.symm⟩
    | ok key =>
      simp only [hk] at h
      by_cases hd : isDue n store key = true
      · simp only [hd, if_true] at h
        cases hr : Item.resolve sp fs n kind place store with
        | error e =>
          simp only [hr, Option.some.injEq, Prod.mk.injEq] at h
          exact .inl ⟨e, h.1.symm, h.2.symm⟩
        | ok item =>
          simp only [hr, Option.some.injEq, Prod.mk.injEq] at h
          have hik := (Item.resolve_eq_ok hr).1
          rw [hk] at hik
          obtain rfl := Except.ok.inj hik
          cases hw : item.write store n.value with
          | mk outcome next =>
            rw [hw] at h
            obtain ⟨hdone, rfl⟩ := h
            cases outcome with
            | error e => exact .inl ⟨e, hdone.symm, Item.write_error hw⟩
            | ok value => exact .inr ⟨hdone.symm, rfl, item, value, rfl, hd, hw⟩
      · simp [hd] at h

theorem halt_of_committed (hk : n.kindAt place = .ok kind) (hkind : kind = .branch ∨ kind = .set)
    (h : (committed? sp fs n kind place p.store).map (settled p place) = some (r, q)) :
    Halt sp fs p place n r q := by
  obtain ⟨⟨done, after⟩, hc, hs⟩ := Option.map_eq_some_iff.mp h
  obtain ⟨rfl, rfl⟩ := Prod.mk.inj hs
  rcases committed?_eq_some hc with ⟨e, rfl, rfl⟩ | ⟨rfl, hkey, item, value, hr, hd, hw⟩
  · exact .failed
  · exact .committed hk hkind hkey hr hd hw

theorem halt_of_asked (hk : n.kindAt place = .ok kind) (hi : kind.isInteractive = true)
    (h : (asked? sp fs n kind place p.store).map (fun item => (item.map Scan.found, p)) =
      some (r, q)) : Halt sp fs p place n r q := by
  obtain ⟨item, ha, he⟩ := Option.map_eq_some_iff.mp h
  obtain ⟨rfl, rfl⟩ := Prod.mk.inj he
  cases item with
  | error e => exact .failed
  | ok item => exact .asked hk hi ha

theorem resetStop?_includes (h : resetStop? sp fs p place n = some (r, q)) :
    q.includes = p.includes := by
  have hs (p : Progress) (done : Except Error Unit × Settings) :
      (settled p place done).2.includes = p.includes := rfl
  unfold resetStop? at h
  split at h
  · cases h
    rfl
  · obtain ⟨done, -, hd⟩ := Option.map_eq_some_iff.mp h
    rw [← hs p done, hd]
  · split at h
    · cases h
      rfl
    · next done _ =>
      have hd := Option.some.inj h
      exact (congrArg (fun e => e.2.includes) hd).symm

theorem halt_of_stop? (h : stop? sp fs p place n = some (r, q)) : Halt sp fs p place n r q := by
  unfold stop? at h
  cases hk : n.kindAt place with
  | error e =>
    rw [hk] at h
    cases h
    exact .failed
  | ok kind =>
    rw [hk] at h
    cases kind with
    | branch =>
      cases hm : matched n place p.store with
      | error e =>
        simp only [hm] at h
        cases h
        exact .failed
      | ok admitted =>
        cases admitted with
        | false => simp [hm] at h
        | true => exact halt_of_committed hk (.inl rfl) (by simpa only [hm] using h)
    | inclusion =>
      cases hc : p.includes.nodes? place with
      | some nodes => simp [hc] at h
      | none =>
        cases ho : p.includes.openAt sp fs n place with
        | error e =>
          simp only [hc, ho] at h
          cases h
          exact .failed
        | ok o =>
          simp only [hc, ho] at h
          cases h
          exact .opened hk hc ho
    | set => exact halt_of_committed hk (.inr rfl) h
    | reset => exact .reset hk (resetStop?_includes h)
    | update => simp at h
    | notice => exact halt_of_asked hk rfl h
    | question => exact halt_of_asked hk rfl h

end Halting

theorem entered_subset (cache : IncludeCache) (store : Settings) (place : WalkPath) (n : Node) :
    entered cache store place n = [] ∨ entered cache store place n = inside cache place n := by
  unfold entered inside
  cases n.kindAt place with
  | error e => exact .inl rfl
  | ok kind =>
    cases kind with
    | branch =>
      cases matched n place store with
      | error e => exact .inl rfl
      | ok admitted => cases admitted <;> simp
    | inclusion => exact .inr rfl
    | _ => exact .inl rfl

theorem course_update {n : Node} {place : WalkPath} (hd : n.disabled = false)
    (hk : n.kindAt place = .ok .update) (p : Progress) :
    ∃ commits, Course sp fs [(place, n)] p commits ((update sp fs n place).exec p) := by
  have hu := exec_update sp fs n place p
  cases hr : raised sp fs n place p.store with
  | error e =>
    simp only [hr] at hu
    rw [hu]
    exact ⟨[], .fail hd hk hu⟩
  | ok counted =>
    obtain ⟨item, total⟩ := counted
    simp only [hr] at hu
    cases hw : item.write p.store (some (.int total)) with
    | mk outcome after =>
      simp only [hw] at hu
      cases outcome with
      | error e =>
        obtain rfl := Item.write_error hw
        rw [hu]
        exact ⟨[], .fail hd hk hu⟩
      | ok value =>
        rw [hu]
        exact ⟨_, .count hd hk hr hw .done⟩

/-- Every pass has a course through the tree. -/
theorem exists_course {cache : IncludeCache} (parent : WalkPath) (index : Nat) (nodes : List Node)
    {p : Progress} (hp : p.includes = cache) :
    ∃ commits, Course sp fs (treeFrom cache parent index nodes) p commits
      ((scanFrom sp fs cache parent index nodes).exec p) := by
  induction parent, index, nodes using tree_induction cache generalizing p with
  | nil parent index =>
    rw [treeFrom_nil, exec_scanFrom_nil]
    exact ⟨[], .done⟩
  | cons parent index n rest ihi ihr =>
    rw [treeFrom_cons, exec_scanFrom_cons, ← List.cons_append]
    have hnode : ∃ commits, Course sp fs ((parent ++ [index], n) ::
        treeFrom cache (parent ++ [index]) 0 (inside cache (parent ++ [index]) n)) p commits
        ((scanAt sp fs cache (parent ++ [index]) n).exec p) := by
      cases hd : n.disabled with
      | true =>
        rw [scanAt_disabled hd, exec_pure]
        exact ⟨[], .skip_all _⟩
      | false =>
        by_cases hu : n.kindAt (parent ++ [index]) = .ok .update
        · have hi : inside cache (parent ++ [index]) n = [] := by simp [inside, hu]
          rw [hi, treeFrom_nil, scanAt_enabled hd, exec_bind, exec_lift, hu]
          exact course_update hd hu p
        · have hku : n.kind ≠ some Kind.update.name := Node.kind_ne_of_kindAt hu
          rw [← hp, exec_scanAt hd hku, hp]
          cases hs : stop? sp fs p (parent ++ [index]) n with
          | some ending => exact ⟨[], .stop hd hs⟩
          | none =>
            rcases entered_subset cache p.store (parent ++ [index]) n with hn | hn
            · simp only [hn, exec_scanFrom_nil]
              exact ⟨[], .pass (.skip_all _)⟩
            · rw [hn]
              obtain ⟨commits, hc⟩ := ihi hp
              exact ⟨commits, .pass hc⟩
    obtain ⟨commits, hc⟩ := hnode
    generalize (scanAt sp fs cache (parent ++ [index]) n).exec p = ending at hc
    obtain ⟨r, q⟩ := ending
    by_cases he : r = .ok .exhausted
    · subst he
      obtain ⟨later, hl⟩ := ihr ((hc.includes_of_exhausted rfl).trans hp)
      exact ⟨commits ++ later, hc.append rfl hl⟩
    · have hstop := hc.extend he (treeFrom cache parent (index + 1) rest)
      rcases r with e | scan
      · exact ⟨commits, hstop⟩
      · cases scan with
        | exhausted => exact absurd rfl he
        | _ => exact ⟨commits, hstop⟩

theorem scan_course (sp : SearchPath) (fs : FileSystem) (nodes : List Node) (p : Progress) :
    ∃ commits, Course sp fs (tree p.includes nodes) p commits ((scan sp fs nodes).exec p) := by
  rw [exec_scan, tree_eq]
  exact exists_course [] 0 nodes rfl

end Walk
end Interview
