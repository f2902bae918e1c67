import Interview.Proofs.Walk.Tree

/-! What a pass can fail with. Whatever goes wrong lies in the document, in the store or in a file; above
all, the limit on repeated passes is not a matter of a single one. -/

namespace Interview

def Error.isOfPass : Error → Bool
  | conflict _ _ => true
  | keyNotFound _ => true
  | invalidValue _ _ => true
  | missingDefault _ => true
  | missingKind _ => true
  | unknownKind _ _ => true
  | missingField _ _ _ => true
  | includeNotFound _ _ => true
  | includeCycle _ _ => true
  | badItem _ _ _ => true
  | invalidPattern _ => true
  | unparsable _ _ => true
  | inaccessible _ => true
  | _ => false

/-- A step that fails, if at all, as a pass can. -/
def Faulty (r : Except Error α) : Prop := ∀ e, r = .error e → e.isOfPass = true

namespace Faulty

variable {α β : Type}

theorem ok (a : α) : Faulty (.ok a) := by
  intro e h
  cases h

theorem error {e : Error} (h : e.isOfPass = true) : Faulty (.error e : Except Error α) := by
  intro e' he
  cases he
  exact h

theorem bind {x : Except Error α} {f : α → Except Error β} (hx : Faulty x)
    (hf : ∀ a, Faulty (f a)) : Faulty (x >>= f) := by
  cases x with
  | error e => exact error (hx e rfl)
  | ok a => exact hf a

theorem map {x : Except Error α} (hx : Faulty x) (f : α → β) : Faulty (x.map f) := by
  cases x with
  | error e => exact error (hx e rfl)
  | ok a => exact ok (f a)

end Faulty

theorem compilePattern_faulty (source : String) : Faulty (compilePattern source) := by
  unfold compilePattern
  split
  · exact .ok _
  · exact .error rfl

namespace Node

theorem kindAt_faulty (n : Node) (place : WalkPath) : Faulty (n.kindAt place) := by
  unfold kindAt
  split
  · exact .error rfl
  · split
    · exact .ok _
    · exact .error rfl

theorem counter_faulty (key : String) (store : Settings) : Faulty (counter key store) := by
  unfold counter
  split
  · exact .ok _
  · split
    · exact .ok _
    · exact .error rfl

theorem storeKey_faulty (n : Node) (kind : Kind) (place : WalkPath) (key : Option String)
    (store : Settings) : Faulty (n.storeKey kind place key store) := by
  unfold storeKey
  dsimp only
  split
  · refine .bind (.ok _) fun key => ?_
    split
    · exact .ok _
    · exact .bind (counter_faulty _ _) fun count => .ok _
  · exact .error rfl

end Node

namespace Settings

theorem delete_faulty (store : Settings) (key : String) : Faulty (store.delete key) := by
  unfold delete
  split
  · exact .ok _
  · exact .error rfl

theorem write_faulty (store : Settings) (key : String) (v : Value) :
    Faulty (store.write key v).1 := by
  unfold write
  dsimp only
  split
  · exact .error rfl
  · split
    · exact .ok _
    · exact .error rfl

end Settings

namespace SearchPath

theorem readText_faulty (sp : SearchPath) (fs : FileSystem) (p : Path) : Faulty (sp.readText fs p) := by
  unfold readText
  dsimp only
  split
  · exact .ok _
  · exact .error rfl

theorem list_faulty (sp : SearchPath) (fs : FileSystem) (l : Listing) : Faulty (sp.list fs l) := by
  unfold list
  dsimp only
  split
  · exact .error rfl
  · exact .ok _

theorem document_faulty (sp : SearchPath) (fs : FileSystem) (p : Path) :
    Faulty (sp.document fs p) := by
  unfold document
  refine .bind (sp.readText_faulty fs _) fun text => ?_
  unfold Document.read Document.ofRaw
  dsimp only
  split
  · exact .ok _
  · split
    · split
      · exact .error rfl
      · split
        · exact .ok _
        · exact .error rfl
      · exact .error rfl
    · exact .error rfl

end SearchPath

namespace Item

theorem chosen_faulty (item : Item) (given : Option Value) : Faulty (item.chosen given) := by
  unfold chosen
  cases item.node.default with
  | none =>
    split
    · exact .error rfl
    · cases given with
      | none => exact .error rfl
      | some v => exact .ok v
  | some default =>
    split
    · exact .ok _
    · cases given with
      | none => exact .ok default
      | some v => exact .ok _

theorem write_faulty (item : Item) (store : Settings) (given : Option Value) :
    Faulty (item.write store given).1 := by
  have ha : Faulty (item.accept given) := by
    unfold accept
    refine .bind (item.chosen_faulty given) fun chosen => ?_
    dsimp only
    split
    · exact .ok _
    · exact .error rfl
  unfold write
  split
  · next e he => exact .error (ha e he)
  · next v _ =>
    have hw := store.write_faulty item.key v
    split
    · exact .ok _
    · next e store he => exact .error (hw e (by rw [he]))

theorem offered_faulty (sp : SearchPath) (fs : FileSystem) (n : Node) (kind : Kind)
    (place : WalkPath) : Faulty (offered sp fs n (.badItem kind place)) := by
  unfold offered
  dsimp only
  split
  · split
    · refine .bind (.map (sp.list_faulty fs _) _) fun listed => ?_
      split
      · exact .map (sp.readText_faulty fs _) _
      · exact .ok _
    · exact .error rfl
  · split
    · exact .map (sp.readText_faulty fs _) _
    · exact .ok _

theorem resolveValues_faulty (n : Node) (kind : Kind) (place : WalkPath) (values : List Value) :
    Faulty (resolveValues n (.badItem kind place) values) := by
  unfold resolveValues
  refine .bind ?_ fun kept => ?_
  · unfold filterBy
    split
    · exact .map (compilePattern_faulty _) _
    · exact .ok _
  · split
    · exact .ok _
    · exact .error rfl

theorem resolve_faulty (sp : SearchPath) (fs : FileSystem) (n : Node) (kind : Kind)
    (place : WalkPath) (store : Settings) : Faulty (resolve sp fs n kind place store) := by
  have hdefault : Faulty (resolveDefault sp fs n) := by
    unfold resolveDefault
    split
    · exact .map (sp.readText_faulty fs _) _
    · exact .ok _
  have hrange : Faulty (resolveRange n (.badItem kind place)) := by
    unfold resolveRange
    split
    · exact .ok _
    · split
      · exact .ok _
      · exact .error rfl
  have hpattern : Faulty (resolvePattern n) := by
    unfold resolvePattern
    split
    · exact .ok _
    · exact .map (compilePattern_faulty _) _
  unfold resolve
  refine .bind (n.storeKey_faulty kind place none store) fun key => ?_
  refine .bind hdefault fun default => .bind (offered_faulty sp fs n kind place) fun values => ?_
  dsimp only
  split
  · refine .bind (.map (resolveValues_faulty n kind place _) _) fun values => ?_
    exact .bind hrange fun range => .bind hpattern fun pattern => .ok _
  · exact .bind (.ok _) fun values => .bind hrange fun range => .bind hpattern fun pattern => .ok _

end Item

theorem IncludeCache.openAt_faulty (cache : IncludeCache) (sp : SearchPath) (fs : FileSystem)
    (n : Node) (place : WalkPath) : Faulty (cache.openAt sp fs n place) := by
  unfold openAt
  dsimp only
  split
  · refine .bind (.ok _) fun path => ?_
    split
    · exact .error rfl
    · split
      · exact .error rfl
      · exact .bind (sp.document_faulty fs _) fun d => .ok _
  · exact .error rfl

namespace Walk

variable {α β : Type} {sp : SearchPath} {fs : FileSystem} {n : Node} {kind : Kind} {place : WalkPath}

def Fails (w : Walk α) : Prop := ∀ p, Faulty (w.exec p).1

namespace Fails

theorem pure (a : α) : Fails (pure a) := fun _ => .ok a

theorem lift {r : Except Error α} (h : Faulty r) : Fails (lift r) := by
  intro p
  rw [exec_lift]
  exact h

theorem store : Fails store := fun p => .ok p.store

theorem bind {w : Walk α} {f : α → Walk β} (hw : Fails w) (hf : ∀ a, Fails (f a)) :
    Fails (w >>= f) := by
  intro p
  have hp := hw p
  rw [exec_bind]
  cases h : w.exec p with
  | mk r q =>
    rw [h] at hp
    cases r with
    | error e => exact .error (hp e rfl)
    | ok a => exact hf a q

theorem discard {w : Walk α} (hw : Fails w) : Fails (discard w) := by
  intro p
  rw [exec_discard]
  exact .map (hw p) _

theorem commit (item : Item) (given : Option Value) : Fails (commit item given) := by
  intro p
  rw [exec_commit]
  exact item.write_faulty p.store given

theorem openInclude (sp : SearchPath) (fs : FileSystem) (n : Node) (place : WalkPath) :
    Fails (openInclude sp fs n place) := by
  intro p
  have ho := p.includes.openAt_faulty sp fs n place
  rw [exec_openInclude]
  cases h : p.includes.openAt sp fs n place with
  | ok o => exact .ok _
  | error e => exact .error (ho e h)

end Fails

theorem branchMatches_fails (n : Node) (place : WalkPath) : Fails (branchMatches n place) := by
  unfold branchMatches
  split
  · exact .pure _
  · exact .bind .store fun store => .bind (.lift (n.storeKey_faulty _ _ _ _)) fun key => .pure _

theorem keyedCommit_fails (sp : SearchPath) (fs : FileSystem) (n : Node) (kind : Kind)
    (place : WalkPath) : Fails (keyedCommit sp fs n kind place) := by
  unfold keyedCommit autoCommit
  split
  · refine .bind .store fun store => .bind (.lift (n.storeKey_faulty _ _ _ _)) fun key => ?_
    split
    · refine .bind (.lift (Item.resolve_faulty sp fs n kind place store)) fun item => ?_
      exact .bind (.discard (.commit item n.value)) fun _ => .pure true
    · exact .pure false
  · exact .pure false

theorem interactive_fails (sp : SearchPath) (fs : FileSystem) (n : Node) (kind : Kind)
    (place : WalkPath) : Fails (interactive sp fs n kind place) := by
  unfold interactive
  split
  · exact .pure _
  · refine .bind .store fun store => .bind (.lift (n.storeKey_faulty _ _ _ _)) fun key => ?_
    split
    · exact .bind (.lift (Item.resolve_faulty sp fs n kind place store)) fun item => .pure _
    · exact .pure _

theorem deleteTargets_fails (n : Node) (place : WalkPath) : Fails (deleteTargets n place) := by
  have hkeys (keys : List String) (store : Settings) : Faulty (clearedKeys n place keys store).1 := by
    induction keys generalizing store with
    | nil => exact .ok _
    | cons key rest ih =>
      simp only [clearedKeys]
      split
      · next e he => exact .error (n.storeKey_faulty _ _ _ _ e he)
      · next key _ =>
        split
        · split
          · next e he => exact .error (store.delete_faulty key e he)
          · exact .map (ih _) _
        · exact ih _
  have hmatching (pattern : Pattern) (keys : List String) (store : Settings) :
      Faulty (clearedMatching pattern keys store).1 := by
    induction keys generalizing store with
    | nil => exact .ok _
    | cons key rest ih =>
      simp only [clearedMatching]
      split
      · split
        · next e he => exact .error (store.delete_faulty key e he)
        · exact .map (ih _) _
      · exact ih _
  intro p
  rw [exec_deleteTargets]
  unfold cleared
  split
  · exact hkeys _ p.store
  · split
    · next e he => exact .error (compilePattern_faulty _ e he)
    · exact hmatching _ _ p.store
  · exact .error rfl

theorem reset_fails (sp : SearchPath) (fs : FileSystem) (n : Node) (place : WalkPath) :
    Fails (reset sp fs n place) := by
  have hcommit (deleted : List String) : Fails (do
      let committed ← keyedCommit sp fs n .reset place
      return if deleted.isEmpty && !committed then Scan.exhausted else .restart place) :=
    .bind (keyedCommit_fails sp fs n .reset place) fun committed => .pure _
  unfold reset
  refine .bind (deleteTargets_fails n place) fun deleted => ?_
  dsimp only
  split
  · exact .bind (fun p => .ok ()) fun _ => hcommit deleted
  · exact hcommit deleted

theorem update_fails (sp : SearchPath) (fs : FileSystem) (n : Node) (place : WalkPath) :
    Fails (update sp fs n place) := by
  unfold update
  refine .bind .store fun store => ?_
  refine .bind (.lift (Item.resolve_faulty sp fs n .update place store)) fun item => ?_
  refine .bind (.lift ?_) fun current => .bind (.lift ?_) fun step => ?_
  · unfold currentCount
    split
    · exact .ok _
    · split
      · exact .ok _
      · exact .error rfl
  · unfold stepOf
    split
    · exact .ok _
    · split
      · exact .ok _
      · exact .error rfl
  · split
    · exact .bind (.discard (.commit item _)) fun _ => .pure _
    · exact .lift (r := .error _) (.error rfl)

section Nodes

variable {cache : IncludeCache}

theorem Fails.of_kindAt {f : Kind → Walk α}
    (hf : ∀ kind, n.kindAt place = .ok kind → Fails (f kind)) :
    Fails (Walk.lift (n.kindAt place) >>= f) := by
  intro p
  rw [exec_bind, exec_lift]
  cases hk : n.kindAt place with
  | error e => exact .error (n.kindAt_faulty place e hk)
  | ok kind => exact hf kind hk p

theorem scanAt_branch_fails (hd : n.disabled = false) (hk : n.kindAt place = .ok .branch)
    (hi : Fails (scanFrom sp fs cache place 0 (inside cache place n))) :
    Fails (scanAt sp fs cache place n) := by
  rw [inside_of_branch hk] at hi
  rw [scanAt_enabled hd]
  refine .of_kindAt fun kind hkind => ?_
  obtain rfl : kind = .branch := Except.ok.inj (hkind.symm.trans hk)
  refine .bind (branchMatches_fails n place) fun admitted => ?_
  split
  · exact .pure _
  · refine .bind (keyedCommit_fails sp fs n .branch place) fun committed => ?_
    split
    · exact .pure _
    · exact hi

theorem scanAt_inclusion_fails (hd : n.disabled = false) (hk : n.kindAt place = .ok .inclusion)
    (hi : Fails (scanFrom sp fs cache place 0 (inside cache place n))) :
    Fails (scanAt sp fs cache place n) := by
  rw [scanAt_enabled hd]
  refine .of_kindAt fun kind hkind => ?_
  obtain rfl : kind = .inclusion := Except.ok.inj (hkind.symm.trans hk)
  dsimp only
  cases hc : cache.nodes? place with
  | some nodes =>
    rw [inside_of_inclusion hk hc] at hi
    exact hi
  | none => exact .bind (.discard (.openInclude sp fs n place)) fun _ => .pure _

/-- A node fails, if at all, as a pass can, when the nodes inside it do. -/
theorem scanAt_fails (hi : Fails (scanFrom sp fs cache place 0 (inside cache place n))) :
    Fails (scanAt sp fs cache place n) := by
  cases hd : n.disabled with
  | true =>
    rw [scanAt_disabled hd]
    exact .pure _
  | false =>
    by_cases hb : n.kindAt place = .ok .branch
    · exact scanAt_branch_fails hd hb hi
    by_cases hc : n.kindAt place = .ok .inclusion
    · exact scanAt_inclusion_fails hd hc hi
    rw [scanAt_enabled hd]
    refine .of_kindAt fun kind hk => ?_
    cases kind with
    | branch => exact absurd hk hb
    | inclusion => exact absurd hk hc
    | set => exact .bind (keyedCommit_fails sp fs n .set place) fun committed => .pure _
    | reset => exact reset_fails sp fs n place
    | update => exact update_fails sp fs n place
    | notice => exact interactive_fails sp fs n .notice place
    | question => exact interactive_fails sp fs n .question place

end Nodes

theorem scanFrom_fails (sp : SearchPath) (fs : FileSystem) (cache : IncludeCache) (parent : WalkPath)
    (index : Nat) (nodes : List Node) : Fails (scanFrom sp fs cache parent index nodes) := by
  induction parent, index, nodes using tree_induction cache with
  | nil parent index =>
    intro p
    rw [exec_scanFrom_nil]
    exact .ok _
  | cons parent index n rest ihi ihr =>
    intro p
    have hn := scanAt_fails ihi p
    rw [exec_scanFrom_cons]
    cases h : (scanAt sp fs cache (parent ++ [index]) n).exec p with
    | mk r q =>
      rw [h] at hn
      rcases r with e | scan
      · exact hn
      · cases scan with
        | exhausted => exact ihr q
        | _ => exact hn

theorem scan_ne_restartLimit (sp : SearchPath) (fs : FileSystem) (nodes : List Node) (p : Progress)
    (limit : Nat) (place : WalkPath) :
    ((scan sp fs nodes).exec p).1 ≠ .error (.restartLimit limit place) := by
  intro h
  have hf := scanFrom_fails sp fs p.includes [] 0 nodes p
  rw [← exec_scan] at hf
  exact Bool.false_ne_true (hf _ h)

end Walk
end Interview
