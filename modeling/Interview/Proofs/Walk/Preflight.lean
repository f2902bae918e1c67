import Interview.Proofs.Walk.Examination

/-! Passes over a document that was examined. They stay in the cache as the examination left it, and what
can still go wrong comes from the store or from the files that items take their values from. -/

namespace Interview.Walk

variable {α β : Type} {cache : IncludeCache} {sp : SearchPath} {fs : FileSystem}

/-- A walk that leaves the cache as it is and fails, if at all, for something else than the structure of
the document. -/
def Keeps (cache : IncludeCache) (w : Walk α) : Prop :=
  ∀ p, p.includes = cache → (w.exec p).2.includes = cache ∧ Clean (w.exec p).1

namespace Keeps

theorem pure (a : α) : Keeps cache (pure a) := fun _ hp => ⟨hp, .ok a⟩

theorem lift {r : Except Error α} (h : Clean r) : Keeps cache (lift r) := by
  intro p hp
  rw [exec_lift]
  exact ⟨hp, h⟩

theorem store : Keeps cache store := fun p hp => ⟨hp, .ok p.store⟩

theorem report (events : List Event) : Keeps cache (report events) := fun _ hp => ⟨hp, .ok ()⟩

theorem bind {w : Walk α} {f : α → Walk β} (hw : Keeps cache w)
    (hf : ∀ a p q, w.exec p = (.ok a, q) → Keeps cache (f a)) : Keeps cache (w >>= f) := by
  intro p hp
  obtain ⟨hi, hc⟩ := hw p hp
  rw [exec_bind]
  cases h : w.exec p with
  | mk r q =>
    rw [h] at hi hc
    cases r with
    | error e => exact ⟨hi, .error (hc e rfl)⟩
    | ok a => exact hf a p q h q hi

theorem discard {w : Walk α} (hw : Keeps cache w) : Keeps cache (discard w) := by
  intro p hp
  rw [exec_discard]
  exact ⟨(hw p hp).1, .map (hw p hp).2 _⟩

theorem commit (item : Item) (given : Option Value) : Keeps cache (commit item given) := by
  intro p hp
  rw [exec_commit]
  exact ⟨hp, item.write_clean p.store given⟩

end Keeps

section Steps

variable {n : Node} {kind : Kind} {place : WalkPath}

theorem branchMatches_keeps (n : Node) (place : WalkPath) : Keeps cache (branchMatches n place) := by
  intro p hp
  rw [exec_branchMatches]
  refine ⟨hp, ?_⟩
  unfold matched
  split
  · exact .ok _
  · exact .map (n.storeKey_clean _ _ _ _) _

theorem keyedCommit_keeps (h : n.Sound kind) (sp : SearchPath) (fs : FileSystem)
    (place : WalkPath) : Keeps cache (keyedCommit sp fs n kind place) := by
  unfold keyedCommit
  split
  · refine .bind .store fun store _ _ _ => ?_
    refine .bind (.lift (n.storeKey_clean kind place none store)) fun key _ _ _ => ?_
    split
    · refine .bind (.lift (Item.resolve_clean h sp fs place store)) fun item _ _ _ => ?_
      exact .bind (.discard (.commit item n.value)) fun _ _ _ _ => .pure true
    · exact .pure false
  · exact .pure false

theorem interactive_keeps (h : n.Sound kind) (sp : SearchPath) (fs : FileSystem)
    (place : WalkPath) : Keeps cache (interactive sp fs n kind place) := by
  unfold interactive
  split
  · exact .pure _
  · refine .bind .store fun store _ _ _ => ?_
    refine .bind (.lift (n.storeKey_clean kind place none store)) fun key _ _ _ => ?_
    split
    · exact .bind (.lift (Item.resolve_clean h sp fs place store)) fun item _ _ _ => .pure _
    · exact .pure _

theorem clearedKeys_clean (n : Node) (place : WalkPath) (keys : List String) (store : Settings) :
    Clean (clearedKeys n place keys store).1 := by
  induction keys generalizing store with
  | nil => exact .ok _
  | cons key rest ih =>
    simp only [clearedKeys]
    split
    · next e he => exact .error (n.storeKey_clean _ _ _ _ e he)
    · next key _ =>
      split
      · split
        · next e he => exact .error (store.delete_clean key e he)
        · exact .map (ih _) _
      · exact ih _

theorem clearedMatching_clean (pattern : Pattern) (keys : List String) (store : Settings) :
    Clean (clearedMatching pattern keys store).1 := by
  induction keys generalizing store with
  | nil => exact .ok _
  | cons key rest ih =>
    simp only [clearedMatching]
    split
    · split
      · next e he => exact .error (store.delete_clean key e he)
      · exact .map (ih _) _
    · exact ih _

theorem deleteTargets_keeps (h : n.Sound .reset) (place : WalkPath) :
    Keeps cache (deleteTargets n place) := by
  intro p hp
  rw [exec_deleteTargets]
  refine ⟨hp, ?_⟩
  unfold cleared
  split
  · exact clearedKeys_clean n place _ p.store
  · next source _ hs =>
    obtain ⟨pattern, hc⟩ := h.resetKeyRegexp source hs
    rw [hc]
    exact clearedMatching_clean pattern _ p.store
  · next hk hr => simpa [hk, hr] using h.targets rfl

theorem reset_keeps (h : n.Sound .reset) (sp : SearchPath) (fs : FileSystem) (place : WalkPath) :
    Keeps cache (reset sp fs n place) := by
  unfold reset
  refine .bind (deleteTargets_keeps h place) fun deleted _ _ _ => ?_
  have hk : Keeps cache (do
      let committed ← keyedCommit sp fs n .reset place
      return if deleted.isEmpty && !committed then Scan.exhausted else .restart place) :=
    .bind (keyedCommit_keeps h sp fs place) fun committed _ _ _ => .pure _
  dsimp only
  split
  · exact .bind (.report _) fun _ _ _ _ => hk
  · exact hk

theorem update_keeps (h : n.Sound .update) (sp : SearchPath) (fs : FileSystem) (place : WalkPath) :
    Keeps cache (update sp fs n place) := by
  unfold update
  refine .bind .store fun store _ _ _ => ?_
  refine .bind (.lift (Item.resolve_clean h sp fs place store)) fun item _ _ _ => ?_
  refine .bind (.lift ?_) fun current _ _ _ => .bind (.lift ?_) fun step _ _ _ => ?_
  · unfold currentCount
    split
    · exact .ok _
    · split
      · exact .ok _
      · exact .error rfl
  · unfold stepOf
    split
    · exact .ok _
    · split
      · exact .ok _
      · next reason hr => exact .error (Value.toInteger_error hr)
  · split
    · exact .bind (.discard (.commit item _)) fun _ _ _ _ => .pure _
    · exact .lift (r := .error _) (.error rfl)

end Steps

theorem scanAt_keeps {n : Node} {kind : Kind} {place : WalkPath} (hk : n.kindAt place = .ok kind)
    (hs : n.Sound kind) (hc : kind = .inclusion → (cache.nodes? place).isSome)
    (hi : Keeps cache (scanFrom sp fs cache place 0 (inside cache place n))) :
    Keeps cache (scanAt sp fs cache place n) := by
  cases hd : n.disabled with
  | true =>
    rw [scanAt_disabled hd]
    exact .pure _
  | false =>
    rw [scanAt_enabled hd]
    refine .bind (.lift (hk ▸ .ok kind)) fun k p q hl => ?_
    rw [exec_lift, hk] at hl
    obtain rfl : kind = k := by simpa using (Prod.mk.inj hl).1
    cases kind with
    | branch =>
      rw [inside_of_branch hk] at hi
      refine .bind (branchMatches_keeps n place) fun admitted _ _ _ => ?_
      split
      · exact .pure _
      · refine .bind (keyedCommit_keeps hs sp fs place) fun committed _ _ _ => ?_
        split
        · exact .pure _
        · exact hi
    | inclusion =>
      obtain ⟨nodes, hn⟩ := Option.isSome_iff_exists.mp (hc rfl)
      rw [inside_of_inclusion hk hn] at hi
      simp only [hn]
      exact hi
    | set => exact .bind (keyedCommit_keeps hs sp fs place) fun committed _ _ _ => .pure _
    | reset => exact reset_keeps hs sp fs place
    | update => exact update_keeps hs sp fs place
    | notice => exact interactive_keeps hs sp fs place
    | question => exact interactive_keeps hs sp fs place

theorem Checked.keeps {parent : WalkPath} {index : Nat} {nodes : List Node}
    (h : Checked cache parent index nodes) (sp : SearchPath) (fs : FileSystem) :
    Keeps cache (scanFrom sp fs cache parent index nodes) := by
  induction h with
  | done =>
    intro p hp
    rw [exec_scanFrom_nil]
    exact ⟨hp, .ok _⟩
  | @node parent index n rest kind hk hs hc _ _ ihi ihr =>
    intro p hp
    obtain ⟨hq, hclean⟩ := scanAt_keeps hk hs hc ihi p hp
    rw [exec_scanFrom_cons]
    cases h : (scanAt sp fs cache (parent ++ [index]) n).exec p with
    | mk r q =>
      rw [h] at hq hclean
      cases r with
      | error e => exact ⟨hq, hclean⟩
      | ok scan =>
        cases scan with
        | exhausted => exact ihr q hq
        | _ => exact ⟨hq, hclean⟩

/-- What may have happened to the progress of an interview: passes over the document with whatever files
there were, and any changes to the store between them. -/
inductive Later (nodes : List Node) (p : Progress) : Progress → Prop
  | now : Later nodes p p
  | stored {q : Progress} (store : Settings) : Later nodes p q → Later nodes p { q with store := store }
  | scanned {q : Progress} (sp : SearchPath) (fs : FileSystem) :
    Later nodes p q → Later nodes p ((scan sp fs nodes).exec q).2

theorem Checked.scan {nodes : List Node} {p : Progress} (h : Checked p.includes [] 0 nodes)
    (sp : SearchPath) (fs : FileSystem) :
    ((scan sp fs nodes).exec p).2.includes = p.includes ∧ Clean ((scan sp fs nodes).exec p).1 := by
  rw [exec_scan]
  exact h.keeps sp fs p rfl

theorem Later.includes_eq {nodes : List Node} {p q : Progress} (hl : Later nodes p q)
    (h : Checked p.includes [] 0 nodes) : q.includes = p.includes := by
  induction hl with
  | now => rfl
  | stored store _ ih => exact ih
  | scanned sp fs _ ih => exact ((ih ▸ h : Checked _ _ _ _).scan sp fs).1.trans ih

/-- Once a document has passed its examination, no later pass over it fails for its structure or opens
another document, whatever the store and the files have become. -/
theorem scan_after_check {nodes : List Node} {p q r : Progress}
    (h : (check sp fs nodes).exec p = (.ok (), q)) (hl : Later nodes q r) (later : SearchPath)
    (files : FileSystem) :
    ((scan later files nodes).exec r).2.includes = q.includes ∧
      ∀ e, ((scan later files nodes).exec r).1 = .error e → e.isStructural = false := by
  have hq := check_checked h
  have hi := hl.includes_eq hq
  obtain ⟨hs, hc⟩ := (hi ▸ hq : Checked r.includes [] 0 nodes).scan later files
  exact ⟨hs.trans hi, hc⟩

/-- An included document whose file has gone since it was opened is neither missed nor opened again. -/
theorem scan_after_check_without_file :
    ((scan .none ⟨[], []⟩ [{ kind := some "include", path := some "/a.json" }]).exec
      ⟨.empty, ⟨none, [([0], ⟨"/a.json", [{ kind := some "notice", range := some "1-3" }]⟩)], []⟩,
        []⟩).2.includes.size = 1 := by
  have h : (check .none ⟨[], []⟩ [{ kind := some "include", path := some "/a.json" }]).exec
      ⟨.empty, ⟨none, [([0], ⟨"/a.json", [{ kind := some "notice", range := some "1-3" }]⟩)], []⟩, []⟩ =
      (.ok (), ⟨.empty, ⟨none,
        [([0], ⟨"/a.json", [{ kind := some "notice", range := some "1-3" }]⟩)], []⟩, []⟩) := rfl
  obtain ⟨hi, -⟩ := scan_after_check h .now .none ⟨[], []⟩
  rw [hi]
  rfl

end Interview.Walk
