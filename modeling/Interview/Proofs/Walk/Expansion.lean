import Interview.Proofs.Walk.Nesting

/-! Passes with some of the included documents beside passes with all of them. They go the same way and
have the same effect, up to an include node that is still to be opened: there the one opens the document
and is repeated. -/

namespace Interview

namespace Outline

mutual

/-- The enabled nodes at and below an entry, each before those inside it; nothing below a disabled one
counts. -/
def enabled : Outline → List (WalkPath × Node)
  | .entry place n none => if n.disabled then [] else [(place, n)]
  | .entry place n (some inner) => if n.disabled then [] else (place, n) :: enabledAll inner

def enabledAll : List Outline → List (WalkPath × Node)
  | [] => []
  | first :: rest => first.enabled ++ enabledAll rest

end

theorem enabled_entry (place : WalkPath) (n : Node) (inner : Option (List Outline)) :
    (entry place n inner).enabled =
      if n.disabled then [] else (place, n) :: enabledAll (inner.getD []) := by
  cases inner <;> simp [enabled, enabledAll]

end Outline

namespace IncludeCache

variable {cache other : IncludeCache} {sp : SearchPath} {fs : FileSystem} {n : Node} {place : WalkPath}
  {o : Opened}

theorem find?_none_of_add {at_ : WalkPath} (h : (cache.add place o).find? at_ = none) :
    cache.find? at_ = none := by
  cases hc : cache.find? at_ with
  | none => rfl
  | some inc =>
    rw [(cache.grown_add place o).find? hc] at h
    cases h

/-- A document is opened the same with whatever else was opened, unless its file is open around it. -/
theorem openAt_of_openAt (h : other.openAt sp fs n place = .ok o)
    (ho : o.included.file ∉ cache.enclosingFiles place) : cache.openAt sp fs n place = .ok o := by
  unfold openAt at h ⊢
  cases hp : n.path with
  | none => simp [hp, bind, Except.bind] at h
  | some path =>
    simp only [hp, bind, Except.bind] at h ⊢
    split at h
    · cases h
    · next hf =>
      simp only [hf, Bool.false_eq_true, if_false]
      split at h
      · cases h
      · have hfile : o.included.file = fs.canonical (sp.resolve fs path) := by
          cases hd : sp.document fs (sp.resolve fs path) with
          | error e => simp [hd] at h
          | ok d =>
            simp only [hd] at h
            rw [← Except.ok.inj h]
        have hc : (cache.enclosingFiles place).contains (fs.canonical (sp.resolve fs path)) = false := by
          simpa [← hfile] using ho
        simp only [hc, Bool.false_eq_true, if_false]
        exact h

end IncludeCache

namespace Walk

variable {α β : Type} {sp : SearchPath} {fs : FileSystem} {doc : List Node}
  {cache part whole : IncludeCache}

def enabledFrom (cache : IncludeCache) (parent : WalkPath) (index : Nat) (nodes : List Node) :
    List (WalkPath × Node) :=
  Outline.enabledAll (Outline.ofNodes (Outline.expansion cache) parent index nodes)

/-- The nodes that passes can come to, in the order of the document: neither disabled themselves nor below
a disabled one. -/
def enabledTree (cache : IncludeCache) (nodes : List Node) : List (WalkPath × Node) :=
  Outline.enabledAll (Outline.ofDocument cache nodes)

theorem enabledFrom_cons (parent : WalkPath) (index : Nat) (n : Node) (rest : List Node) :
    enabledFrom cache parent index (n :: rest) =
      (if n.disabled then [] else
        (parent ++ [index], n) ::
          enabledFrom cache (parent ++ [index]) 0 (inside cache (parent ++ [index]) n)) ++
        enabledFrom cache parent (index + 1) rest := by
  obtain ⟨inner, he, hi⟩ := ofNode_inside cache (parent ++ [index]) n
  rw [enabledFrom, Outline.ofNodes, Outline.enabledAll, he, Outline.enabled_entry, hi]
  rfl

/-- Some of the documents of a cache. What is missing can still be opened, as it was opened there. -/
structure Expands (sp : SearchPath) (fs : FileSystem) (doc : List Node) (part whole : IncludeCache) :
    Prop where
  root : part.root = whole.root
  found : ∀ place inc, part.find? place = some inc → whole.find? place = some inc
  missing : ∀ place inc, part.find? place = none → whole.find? place = some inc →
    ∃ n cache o, Stands whole doc place n ∧ IncludeCache.openAt cache sp fs n place = .ok o ∧
      o.included = inc
  nested : Nested doc whole

namespace Expands

theorem of_explores {fresh : WalkPath → Prop} {old new : IncludeCache}
    (h : Explores sp fs doc fresh old new) (hn : Nested doc old) : Expands sp fs doc old new := by
  have hg := h.grown
  refine ⟨hg.root.symm, fun place inc => hg.find?, fun place inc hnone hi => ?_, hn.explores h⟩
  induction h with
  | refl =>
    rw [hnone] at hi
    cases hi
  | @tail mid new h hs ih =>
    have hmid : Explores sp fs doc fresh old mid := h
    have hg' := hs.grown
    obtain ⟨-, hstands, -, -, hopen⟩ := hs
    rcases IncludeCache.find?_add hi with hold | ⟨rfl, rfl⟩
    · obtain ⟨n, cache, o, hm, ho⟩ := ih hmid.grown hold
      exact ⟨n, cache, o, hm.grown hg', ho⟩
    · exact ⟨_, _, _, hstands.grown hg', hopen, rfl⟩

variable {place : WalkPath} {n : Node}

theorem not_enclosing (h : Expands sp fs doc part whole) {inc : Included}
    (hi : whole.find? place = some inc) : inc.file ∉ part.enclosingFiles place := by
  have hnil : part.find? [] = none := by
    cases hp : part.find? [] with
    | none => rfl
    | some inc =>
      have hw := h.found [] inc hp
      rw [h.nested.find?_nil] at hw
      cases hw
  rw [IncludeCache.mem_enclosingFiles_iff hnil, h.root]
  rintro (hr | ⟨above, a, hp, hne, ha, hf⟩)
  · exact h.nested.root place inc hi hr
  · exact h.nested.above place inc above a hi (h.found above a ha) hp hne hf

theorem opens (h : Expands sp fs doc part whole) (hs : Stands whole doc place n)
    (hp : part.find? place = none) (hw : (whole.find? place).isSome) :
    ∃ o, part.openAt sp fs n place = .ok o ∧ Expands sp fs doc (part.add place o) whole := by
  obtain ⟨inc, hi⟩ := Option.isSome_iff_exists.mp hw
  obtain ⟨m, cache, o, hm, ho, rfl⟩ := h.missing place inc hp hi
  obtain rfl := hs.unique hm
  refine ⟨o, IncludeCache.openAt_of_openAt ho (h.not_enclosing hi), h.root, fun at_ inc hf => ?_,
    fun at_ inc hf => h.missing at_ inc (IncludeCache.find?_none_of_add hf), h.nested⟩
  rcases IncludeCache.find?_add hf with hold | ⟨rfl, rfl⟩
  · exact h.found at_ inc hold
  · exact hi

theorem nodes? (h : Expands sp fs doc part whole) {nodes : List Node}
    (hn : part.nodes? place = some nodes) : whole.nodes? place = some nodes := by
  obtain ⟨inc, hi, rfl⟩ := Option.map_eq_some_iff.mp hn
  exact Option.map_eq_some_iff.mpr ⟨inc, h.found place inc hi, rfl⟩

end Expands

/-- Of two nodes, the first is no update, or the second is no include that is still to be opened. -/
def Ordered (part : IncludeCache) (v w : WalkPath × Node) : Prop :=
  v.2.kindAt v.1 = .ok .update → w.2.kindAt w.1 = .ok .inclusion → (part.find? w.1).isSome

theorem Ordered.grown {old new : IncludeCache} {fresh : WalkPath → Prop} {v w : WalkPath × Node}
    (h : Ordered old v w) (hg : old.Grown new fresh) : Ordered new v w := by
  intro hv hw
  obtain ⟨inc, hi⟩ := Option.isSome_iff_exists.mp (h hv hw)
  rw [hg.find? hi]
  rfl

/-- How two passes end over some nodes and from the same store: alike, where the store is the same as
before unless an update was on the way, or one of them with a document that was to be opened still. -/
inductive Abreast (sp : SearchPath) (fs : FileSystem) (doc : List Node) (part whole : IncludeCache)
    (nodes : List (WalkPath × Node)) (store : Settings) :
    Except Error Scan × Progress → Except Error Scan × Progress → Prop
  | alike {r : Except Error Scan} {q q' : Progress} :
    q'.store = q.store → q.includes = part → q'.includes = whole →
    (r = .ok .exhausted → q.store = store ∨ ∃ v ∈ nodes, v.2.kindAt v.1 = .ok .update) →
    Abreast sp fs doc part whole nodes store (r, q) (r, q')
  | opened {v : WalkPath × Node} {q : Progress} {ending : Except Error Scan × Progress} :
    v ∈ nodes → v.2.kindAt v.1 = .ok .inclusion → part.find? v.1 = none → q.store = store →
    Expands sp fs doc q.includes whole →
    Abreast sp fs doc part whole nodes store (.ok (.restart v.1), q) ending

namespace Abreast

variable {nodes more : List (WalkPath × Node)} {store : Settings}
  {ending ending' : Except Error Scan × Progress}

theorem mono (h : Abreast sp fs doc part whole nodes store ending ending') (hs : nodes ⊆ more) :
    Abreast sp fs doc part whole more store ending ending' := by
  cases h with
  | alike hst hp hw hr =>
    exact .alike hst hp hw fun he => (hr he).imp_right fun ⟨v, hv, hk⟩ => ⟨v, hs hv, hk⟩
  | opened hv hk hp hst hx => exact .opened (hs hv) hk hp hst hx

theorem after {q : Progress} (h : Abreast sp fs doc part whole more q.store ending ending')
    (hq : q.store = store ∨ ∃ v ∈ nodes, v.2.kindAt v.1 = .ok .update)
    (ho : (nodes ++ more).Pairwise (Ordered part)) :
    Abreast sp fs doc part whole (nodes ++ more) store ending ending' := by
  rcases hq with rfl | ⟨u, hu, hku⟩
  · exact h.mono (List.subset_append_right _ _)
  · cases h with
    | alike hst hp hw _ =>
      exact .alike hst hp hw fun _ => .inr ⟨u, List.mem_append_left _ hu, hku⟩
    | @opened v q ending hv hk hp _ _ =>
      -- an update on the way, so that the include cannot be one that is still to be opened
      have hopened := (List.pairwise_append.mp ho).2.2 u hu v hv hku hk
      rw [hp] at hopened
      cases hopened

end Abreast

section Stops

variable {n : Node} {place : WalkPath} {p p' : Progress}

def outcome (ending : Except Error Scan × Progress) : Except Error Scan × Settings :=
  (ending.1, ending.2.store)

theorem resetStop?_outcome (h : p'.store = p.store) :
    (resetStop? sp fs p' place n).map outcome = (resetStop? sp fs p place n).map outcome := by
  unfold resetStop?
  rw [h]
  cases cleared n place p.store with
  | mk deleted store =>
    rcases deleted with e | _ | ⟨key, rest⟩
    · rfl
    · cases committed? sp fs n .reset place p.store <;> rfl
    · dsimp only
      cases committed? sp fs n .reset place store <;> rfl

/-- Whether and how a node ends a pass depends on the store alone, unless it includes a document. -/
theorem stop?_outcome (h : p'.store = p.store) (hk : n.kindAt place ≠ .ok .inclusion) :
    (stop? sp fs p' place n).map outcome = (stop? sp fs p place n).map outcome := by
  have hcommitted (kind : Kind) :
      ((committed? sp fs n kind place p'.store).map (settled p' place)).map outcome =
        ((committed? sp fs n kind place p.store).map (settled p place)).map outcome := by
    rw [h, Option.map_map, Option.map_map]
    rfl
  have hasked (kind : Kind) :
      ((asked? sp fs n kind place p'.store).map fun item => (item.map Scan.found, p')).map outcome =
        ((asked? sp fs n kind place p.store).map fun item => (item.map Scan.found, p)).map outcome := by
    rw [h, Option.map_map, Option.map_map]
    simp only [Function.comp_def, outcome, h]
  have herror (e : Error) : outcome (.error e, p') = outcome (.error e, p) :=
    congrArg (Prod.mk _) h
  unfold stop?
  cases hkind : n.kindAt place with
  | error e => exact congrArg some (herror e)
  | ok kind =>
    cases kind with
    | branch =>
      dsimp only
      rw [h]
      cases matched n place p.store with
      | error e => exact congrArg some (herror e)
      | ok admitted =>
        cases admitted with
        | false => rfl
        | true => simpa only [h] using hcommitted .branch
    | inclusion => exact absurd hkind hk
    | set => exact hcommitted .set
    | reset => exact resetStop?_outcome h
    | update => rfl
    | notice => exact hasked .notice
    | question => exact hasked .question

theorem stop?_includes {r : Except Error Scan} {q : Progress} (hk : n.kindAt place ≠ .ok .inclusion)
    (hs : stop? sp fs p place n = some (r, q)) : q.includes = p.includes := by
  cases halt_of_stop? hs with
  | failed => rfl
  | committed => rfl
  | opened hkind => exact absurd hkind hk
  | asked => rfl
  | reset _ hq => exact hq

theorem stop?_abreast {nodes : List (WalkPath × Node)} (h : p'.store = p.store)
    (hk : n.kindAt place ≠ .ok .inclusion) :
    (stop? sp fs p place n = none ∧ stop? sp fs p' place n = none) ∨
      ∃ ending ending', stop? sp fs p place n = some ending ∧ stop? sp fs p' place n = some ending' ∧
        Abreast sp fs doc p.includes p'.includes nodes p.store ending ending' := by
  have ho : (stop? sp fs p' place n).map outcome = (stop? sp fs p place n).map outcome :=
    stop?_outcome h hk
  cases hs : stop? sp fs p place n with
  | none =>
    rw [hs] at ho
    exact .inl ⟨rfl, Option.map_eq_none_iff.mp ho⟩
  | some ending =>
    obtain ⟨r, q⟩ := ending
    rw [hs] at ho
    obtain ⟨⟨r', q'⟩, hs', he⟩ := Option.map_eq_some_iff.mp ho
    obtain ⟨rfl, hst⟩ := Prod.mk.inj he
    refine .inr ⟨_, _, rfl, hs', .alike hst (stop?_includes hk hs) (stop?_includes hk hs') ?_⟩
    rintro rfl
    exact absurd hs stop?_ne_exhausted

end Stops

section Passes

variable {p p' : Progress}

theorem update_abreast {n : Node} {place : WalkPath} {nodes : List (WalkPath × Node)}
    (hv : (place, n) ∈ nodes) (hk : n.kindAt place = .ok .update) (h : p'.store = p.store) :
    Abreast sp fs doc p.includes p'.includes nodes p.store ((update sp fs n place).exec p)
      ((update sp fs n place).exec p') := by
  rw [exec_update, exec_update, h]
  cases raised sp fs n place p.store with
  | error e => exact .alike h rfl rfl fun he => by cases he
  | ok counted => exact .alike rfl rfl rfl fun _ => .inr ⟨_, hv, hk⟩

section Nodes

variable {n : Node} {kind : Kind} {place : WalkPath}

/-- At an include the passes part where only one of them has the document. -/
theorem inclusion_abreast (hx : Expands sp fs doc p.includes p'.includes)
    (hs : Stands p'.includes doc place n) (hd : n.disabled = false) (hk : n.kindAt place = .ok .inclusion)
    (hc : (p'.includes.nodes? place).isSome) {nodes : List (WalkPath × Node)} (hv : (place, n) ∈ nodes)
    (hin : Abreast sp fs doc p.includes p'.includes nodes p.store
      ((scanFrom sp fs p.includes place 0 (inside p'.includes place n)).exec p)
      ((scanFrom sp fs p'.includes place 0 (inside p'.includes place n)).exec p')) :
    Abreast sp fs doc p.includes p'.includes nodes p.store
      ((scanAt sp fs p.includes place n).exec p) ((scanAt sp fs p'.includes place n).exec p') := by
  obtain ⟨inner, hn⟩ := Option.isSome_iff_exists.mp hc
  rw [inside_of_inclusion hk hn] at hin
  rw [scanAt_enabled hd, scanAt_enabled hd, exec_bind, exec_bind, exec_lift, exec_lift, hk]
  dsimp only
  rw [hn]
  cases hp : p.includes.nodes? place with
  | some inner' =>
    obtain rfl : inner' = inner := Option.some.inj ((hx.nodes? hp).symm.trans hn)
    exact hin
  | none =>
    have hnone := IncludeCache.find?_eq_none.mpr hp
    have hfound : (p'.includes.find? place).isSome := by
      simpa only [IncludeCache.nodes?, Option.isSome_map] using hc
    obtain ⟨o, ho, hx'⟩ := hx.opens hs hnone hfound
    dsimp only
    rw [exec_bind, exec_discard, exec_openInclude, ho]
    exact .opened (v := (place, n)) hv hk hnone rfl hx'

theorem entered_eq (hk : n.kindAt place ≠ .ok .inclusion) (cache cache' : IncludeCache)
    (store : Settings) : entered cache store place n = entered cache' store place n := by
  unfold entered
  cases hkind : n.kindAt place with
  | error e => rfl
  | ok kind =>
    cases kind with
    | inclusion => exact absurd hkind hk
    | _ => rfl

theorem stopping_abreast (hd : n.disabled = false) (hu : n.kindAt place ≠ .ok .update)
    (hi : n.kindAt place ≠ .ok .inclusion) (hst : p'.store = p.store) {nodes : List (WalkPath × Node)}
    (hin : Abreast sp fs doc p.includes p'.includes nodes p.store
      ((scanFrom sp fs p.includes place 0 (inside p'.includes place n)).exec p)
      ((scanFrom sp fs p'.includes place 0 (inside p'.includes place n)).exec p')) :
    Abreast sp fs doc p.includes p'.includes nodes p.store
      ((scanAt sp fs p.includes place n).exec p) ((scanAt sp fs p'.includes place n).exec p') := by
  have hku : n.kind ≠ some Kind.update.name := Node.kind_ne_of_kindAt hu
  rw [exec_scanAt hd hku, exec_scanAt hd hku]
  rcases stop?_abreast hst hi with ⟨hs, hs'⟩ | ⟨ending, ending', hs, hs', ha⟩
  · rw [hs, hs']
    dsimp only
    rw [hst, entered_eq hi p.includes p'.includes]
    rcases entered_subset p'.includes p.store place n with he | he
    · rw [he, exec_scanFrom_nil, exec_scanFrom_nil]
      exact .alike hst rfl rfl fun _ => .inl rfl
    · rwa [he]
  · rw [hs, hs']
    exact ha

theorem scanAt_abreast (hx : Expands sp fs doc p.includes p'.includes)
    (hs : Stands p'.includes doc place n) (hd : n.disabled = false) (hk : n.kindAt place = .ok kind)
    (hc : kind = .inclusion → (p'.includes.nodes? place).isSome) (hst : p'.store = p.store)
    (hin : Abreast sp fs doc p.includes p'.includes
      (enabledFrom p'.includes place 0 (inside p'.includes place n)) p.store
      ((scanFrom sp fs p.includes place 0 (inside p'.includes place n)).exec p)
      ((scanFrom sp fs p'.includes place 0 (inside p'.includes place n)).exec p')) :
    Abreast sp fs doc p.includes p'.includes
      ((place, n) :: enabledFrom p'.includes place 0 (inside p'.includes place n)) p.store
      ((scanAt sp fs p.includes place n).exec p) ((scanAt sp fs p'.includes place n).exec p') := by
  have hinside := hin.mono (List.subset_cons_self (place, n) _)
  by_cases hu : n.kindAt place = .ok .update
  · rw [scanAt_enabled hd, scanAt_enabled hd, exec_bind, exec_bind, exec_lift, exec_lift, hu]
    exact update_abreast List.mem_cons_self hu hst
  by_cases hi : n.kindAt place = .ok .inclusion
  · obtain rfl := Except.ok.inj (hk.symm.trans hi)
    exact inclusion_abreast hx hs hd hi (hc rfl) List.mem_cons_self hinside
  · exact stopping_abreast hd hu hi hst hinside

end Nodes

theorem scanFrom_abreast (hx : Expands sp fs doc part whole) {parent : WalkPath} {index : Nat}
    {nodes : List Node} (hc : Checked whole parent index nodes)
    (hs : StandAt whole doc parent index nodes)
    (ho : (enabledFrom whole parent index nodes).Pairwise (Ordered part))
    (hp : p.includes = part) (hp' : p'.includes = whole) (hst : p'.store = p.store) :
    Abreast sp fs doc part whole (enabledFrom whole parent index nodes) p.store
      ((scanFrom sp fs part parent index nodes).exec p)
      ((scanFrom sp fs whole parent index nodes).exec p') := by
  induction hc generalizing p p' with
  | done =>
    rw [exec_scanFrom_nil, exec_scanFrom_nil]
    exact .alike hst hp hp' fun _ => .inl rfl
  | @node parent index n rest kind hk hsound hcached hinner hrest ihi ihr =>
    rw [enabledFrom_cons] at ho ⊢
    rw [exec_scanFrom_cons, exec_scanFrom_cons]
    cases hd : n.disabled with
    | true =>
      simp only [hd, if_true, List.nil_append] at ho ⊢
      rw [scanAt_disabled hd, scanAt_disabled hd]
      exact ihr hs.tail ho hp hp' hst
    | false =>
      simp only [hd, Bool.false_eq_true, if_false] at ho ⊢
      obtain ⟨hon, hor, -⟩ := List.pairwise_append.mp ho
      have hin := ihi hs.head.inside (List.pairwise_cons.mp hon).2 hp hp' hst
      have hnode : Abreast sp fs doc part whole
          ((parent ++ [index], n) ::
            enabledFrom whole (parent ++ [index]) 0 (inside whole (parent ++ [index]) n)) p.store
          ((scanAt sp fs part (parent ++ [index]) n).exec p)
          ((scanAt sp fs whole (parent ++ [index]) n).exec p') := by
        subst hp hp'
        exact scanAt_abreast hx hs.head hd hk hcached hst hin
      generalize (scanAt sp fs part (parent ++ [index]) n).exec p = ending at hnode
      generalize (scanAt sp fs whole (parent ++ [index]) n).exec p' = ending' at hnode
      cases hnode with
      | @alike r q q' hq hqp hqw hr =>
        by_cases he : r = .ok .exhausted
        · subst he
          exact (ihr hs.tail hor hqp hqw hq).after (hr rfl) ho
        · have hend (nodes : List (WalkPath × Node)) :
              Abreast sp fs doc part whole nodes p.store (r, q) (r, q') :=
            .alike hq hqp hqw fun h => absurd h he
          rcases r with e | scan
          · exact hend _
          · cases scan with
            | exhausted => exact absurd rfl he
            | _ => exact hend _
      | @opened v q ending hv hkv hpv hq hxq =>
        exact .opened (List.mem_append_left _ hv) hkv hpv hq hxq

theorem scan_abreast (hx : Expands sp fs doc p.includes p'.includes)
    (hc : Checked p'.includes [] 0 doc)
    (ho : (enabledTree p'.includes doc).Pairwise (Ordered p.includes)) (hst : p'.store = p.store) :
    Abreast sp fs doc p.includes p'.includes (enabledTree p'.includes doc) p.store
      ((scan sp fs doc).exec p) ((scan sp fs doc).exec p') := by
  rw [exec_scan, exec_scan]
  exact scanFrom_abreast hx hc (standAt_doc _ _) ho rfl rfl hst

end Passes

def Unwritten (w : Walk α) : Prop := ∀ p, (w.exec p).2.store = p.store

theorem Still.unwritten {w : Walk α} (h : Still w) : Unwritten w := fun p => by rw [h p]

theorem Unwritten.bind {w : Walk α} {f : α → Walk β} (hw : Unwritten w) (hf : ∀ a, Unwritten (f a)) :
    Unwritten (w >>= f) := by
  intro p
  have hp := hw p
  rw [exec_bind]
  cases h : w.exec p with
  | mk r q =>
    rw [h] at hp
    cases r with
    | error e => exact hp
    | ok a => exact (hf a q).trans hp

section Examining

variable {descend : List Node → WalkPath → Walk Unit}

theorem includedNodes_unwritten (n : Node) (place : WalkPath) :
    Unwritten (includedNodes sp fs n place) := by
  intro p
  rw [exec_includedNodes]
  cases p.includes.nodes? place with
  | some nodes => rfl
  | none => cases p.includes.openAt sp fs n place <;> rfl

theorem checkNode_unwritten (hd : ∀ nodes place, Unwritten (descend nodes place)) {n : Node}
    {place : WalkPath} (hb : Unwritten (checkNodes sp fs descend place 0 (n.interview.getD []))) :
    Unwritten (checkNode sp fs descend place n) := by
  have hrules (kind : Kind) : Unwritten (checkRules n kind place) :=
    (checkRules_still n kind place).unwritten
  rw [checkNode_eq]
  refine (Still.lift _).unwritten.bind fun kind => ?_
  cases kind with
  | branch => exact hb.bind fun _ => hrules .branch
  | inclusion =>
    refine (includedNodes_unwritten n place).bind fun nodes => ?_
    exact (hd nodes place).bind fun _ => hrules .inclusion
  | question => exact (checkAsked_still n .question place).unwritten.bind fun _ => hrules .question
  | set => exact (checkAsked_still n .set place).unwritten.bind fun _ => hrules .set
  | reset =>
    dsimp only
    split
    · exact (Still.throw _).unwritten
    · exact hrules .reset
  | notice => exact hrules .notice
  | update => exact hrules .update

theorem checkNodes_unwritten (hd : ∀ nodes place, Unwritten (descend nodes place)) {parent : WalkPath}
    {index : Nat} {nodes : List Node} : Unwritten (checkNodes sp fs descend parent index nodes) := by
  cases nodes with
  | nil => exact fun p => rfl
  | cons n rest =>
    have hsize := n.sizeOf_getD_interview
    rw [checkNodes]
    exact (checkNode_unwritten hd (checkNodes_unwritten hd)).bind fun _ => checkNodes_unwritten hd
termination_by sizeOf nodes

theorem check_unwritten (nodes : List Node) : Unwritten (check sp fs nodes) := by
  have hlevels (levels : Nat) (nodes : List Node) (place : WalkPath) :
      Unwritten (checkLevels sp fs levels nodes place) := by
    induction levels generalizing nodes place with
    | zero => exact fun p => rfl
    | succ levels ih => exact checkNodes_unwritten ih
  intro p
  rw [check, exec_bind, exec_get]
  exact hlevels _ nodes [] p

end Examining

end Walk
end Interview
