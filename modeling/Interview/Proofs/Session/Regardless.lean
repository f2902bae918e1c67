import Interview.Proofs.Session.Conversation
import Interview.Proofs.Walk.Expansion

/-! Sessions that were examined beside sessions that were not. The latter repeat a pass for each document
that they open, and as long as no update is made in such a pass this is all that tells them apart. -/

namespace Interview

namespace Session

variable {fs : FileSystem} {s c t u : Session}

theorem scan_fixed {r : Except Error Scan} (h : s.scan fs = (r, t)) :
    t.document = s.document ∧ t.search = s.search ∧ t.ceiling = s.ceiling := by
  obtain ⟨rfl, rfl⟩ := Prod.mk.inj h
  exact ⟨rfl, rfl, rfl⟩

/-- A session without a limit on repeated passes, and an examined one on the same document and with the
same store; no update stands before an include that the first one has yet to open. -/
structure Beside (fs : FileSystem) (s c : Session) : Prop where
  document : c.document = s.document
  search : c.search = s.search
  unlimited : s.ceiling = 0 ∧ c.ceiling = 0
  store : c.store = s.store
  expands : Walk.Expands s.search fs s.document s.progress.includes c.progress.includes
  checked : Walk.Checked c.progress.includes [] 0 s.document
  ordered : (Walk.enabledTree c.progress.includes s.document).Pairwise
    (Walk.Ordered s.progress.includes)

namespace Beside

/-- Both make the same pass, or the first one opens a document and is to be repeated. -/
theorem scan (h : Beside fs s c) {r r' : Except Error Scan} (hs : s.scan fs = (r, t))
    (hc : c.scan fs = (r', u)) :
    (r' = r ∧ Beside fs t u) ∨ (∃ place, r = .ok (.restart place)) ∧ Beside fs t c := by
  obtain ⟨hdoc, hsearch, hlimit⟩ := scan_fixed hs
  obtain ⟨hdoc', hsearch', hlimit'⟩ := scan_fixed hc
  have hexec := exec_of_scan hs
  have hexec' := exec_of_scan hc
  rw [h.document, h.search] at hexec'
  have hgrown := (Walk.scan_explores s.search fs s.document s.progress).grown
  have hstore : c.progress.store = s.progress.store := h.store
  have hpass := Walk.scan_abreast h.expands h.checked h.ordered hstore
  rw [hexec] at hgrown hpass
  rw [hexec'] at hpass
  have hordered : (Walk.enabledTree c.progress.includes s.document).Pairwise
      (Walk.Ordered t.progress.includes) := h.ordered.imp fun ho => ho.grown hgrown
  cases hpass with
  | alike hq hp hw _ =>
    refine .inl ⟨rfl, ?_, ?_, ?_, hq, ?_, ?_, ?_⟩
    · rw [hdoc', hdoc, h.document]
    · rw [hsearch', hsearch, h.search]
    · rw [hlimit, hlimit']
      exact h.unlimited
    · rw [hsearch, hdoc, hp, hw]
      exact h.expands
    · rw [hdoc, hw]
      exact h.checked
    · rw [hdoc, hw]
      exact hordered
  | opened _ _ _ hq hx =>
    refine .inr ⟨⟨_, rfl⟩, ?_, ?_, ?_, hstore.trans hq.symm, ?_, ?_, ?_⟩
    · rw [hdoc, h.document]
    · rw [hsearch, h.search]
    · rw [hlimit]
      exact h.unlimited
    · rw [hsearch, hdoc]
      exact hx
    · rw [hdoc]
      exact h.checked
    · rw [hdoc]
      exact hordered

theorem settle (h : Beside fs s c) {passes passes' : Nat} {place place' : WalkPath}
    {r r' : Except Error (Option Item)} (hs : Session.settle fs place passes s = (.settled r, t))
    (hc : Session.settle fs place' passes' c = (.settled r', u)) : r' = r ∧ Beside fs t u := by
  induction passes generalizing s c place place' passes' with
  | zero => cases hs
  | succ passes ih =>
    cases passes' with
    | zero => cases hc
    | succ passes' =>
      have hc' := hc
      unfold Session.settle at hs hc'
      cases hscan : s.scan fs with
      | mk p mid =>
        cases hscan' : c.scan fs with
        | mk p' mid' =>
          rw [hscan] at hs
          rw [hscan'] at hc'
          rcases h.scan hscan hscan' with ⟨rfl, hb⟩ | ⟨⟨at_, rfl⟩, hb⟩
          · rcases p' with e | scan
            · obtain ⟨hr, rfl⟩ := Prod.mk.inj hs
              obtain ⟨hr', rfl⟩ := Prod.mk.inj hc'
              cases hr
              cases hr'
              exact ⟨rfl, hb⟩
            · cases scan with
              | restart at_ => exact ih hb hs hc'
              | _ =>
                obtain ⟨hr, rfl⟩ := Prod.mk.inj hs
                obtain ⟨hr', rfl⟩ := Prod.mk.inj hc'
                cases hr
                cases hr'
                exact ⟨rfl, hb⟩
          · -- the examined session is still before this pass
            exact ih hb hs hc

theorem next (h : Beside fs s c) {patience patience' : Nat} {r r' : Except Error (Option Item)}
    (hs : s.next fs patience = some (r, t)) (hc : c.next fs patience' = some (r', u)) :
    r' = r ∧ Beside fs t u :=
  h.settle ((next_eq_some h.unlimited.1).mp hs) ((next_eq_some h.unlimited.2).mp hc)

theorem answer (h : Beside fs s c) {item : Item} {reply : String} {value value' : Value}
    (hs : s.answer item reply = (.ok value, t)) (hc : c.answer item reply = (.ok value', u)) :
    Beside fs t u := by
  obtain ⟨store, hw, rfl⟩ := answer_eq_ok hs
  obtain ⟨store', hw', rfl⟩ := answer_eq_ok hc
  rw [h.store, hw] at hw'
  obtain ⟨-, rfl⟩ := Prod.mk.inj hw'
  exact ⟨h.document, h.search, h.unlimited, rfl, h.expands, h.checked, h.ordered⟩

theorem turns (h : Beside fs s c) {replies : Nat → String} {k : Nat}
    (hs : Turns (fun _ => fs) replies s k t) (hc : Turns (fun _ => fs) replies c k u) :
    Beside fs t u := by
  induction hs generalizing u with
  | none =>
    cases hc
    exact h
  | turn _ hn ha ih =>
    cases hc with
    | turn hc hn' ha' =>
      obtain ⟨hitem, hb⟩ := (ih hc).next hn hn'
      cases hitem
      exact hb.answer ha ha'

end Beside

theorem beside_check (h : Walk.Explored s.document s.progress) (hl : s.ceiling = 0)
    (hc : s.check fs = (.ok (), c))
    (ho : (Walk.enabledTree c.progress.includes s.document).Pairwise
      (Walk.Ordered s.progress.includes)) : Beside fs s c := by
  obtain ⟨q, hexec, hincludes, hstore, hdoc, hsearch, hlimit⟩ := check_eq_ok hc
  have hx := Walk.check_explores s.search fs s.document s.progress
  have hw : ((Walk.check s.search fs s.document).exec s.progress).2.store = s.store :=
    Walk.check_unwritten s.document s.progress
  rw [hexec] at hx hw
  refine ⟨hdoc, hsearch, ⟨hl, hlimit.trans hl⟩, hstore.trans hw, ?_, ?_, ho⟩
  · rw [hincludes]
    exact .of_explores hx h.nested
  · rw [hincludes]
    exact Walk.check_checked hexec

/-- Where no update stands before an include that is still to be opened, it makes no difference whether a
session is examined first: after the same replies both ask for the same item and have the same store. -/
theorem next_regardless_of_check {replies : Nat → String} {k patience patience' : Nat} {s' c' : Session}
    {r r' : Except Error (Option Item)} (h : Walk.Explored s.document s.progress) (hl : s.ceiling = 0)
    (hc : s.check fs = (.ok (), c))
    (ho : (Walk.enabledTree c.progress.includes s.document).Pairwise
      (Walk.Ordered s.progress.includes))
    (hs : Turns (fun _ => fs) replies s k s') (hn : s'.next fs patience = some (r, t))
    (hs' : Turns (fun _ => fs) replies c k c') (hn' : c'.next fs patience' = some (r', u)) :
    r' = r ∧ u.store = t.store := by
  obtain ⟨hr, hb⟩ := ((beside_check h hl hc ho).turns hs hs').next hn hn'
  exact ⟨hr, hb.store⟩

section Tally

open Walk

def counter : Node := { kind := some "update", key := some "count" }

def tally (document : List Node) (progress : Progress) : Session where
  document := document
  unknownFields := []
  search := .none
  ceiling := 0
  strict := false
  progress := progress

variable {document : List Node} {p q : Progress}

theorem tally_check (h : (Walk.check .none loneFile document).exec p = (.ok (), q)) :
    (tally document p).check loneFile =
      (.ok (), (tally document q).report (.checked document.length q.includes.size)) := by
  have hs : (tally document p).search = .none := rfl
  have hd : (tally document p).document = document := rfl
  have hp : (tally document p).perform (Walk.check .none loneFile document) =
      (.ok (), tally document q) := by
    show (((Walk.check .none loneFile document).exec p).1,
      tally document ((Walk.check .none loneFile document).exec p).2) = _
    rw [h]
  rw [check, hs, hd, hp]
  rfl

theorem tally_scan {r : Except Error Scan} (h : (Walk.scan .none loneFile document).exec p = (r, q)) :
    (tally document p).scan loneFile = (r, tally document q) := by
  show (((Walk.scan .none loneFile document).exec p).1,
    tally document ((Walk.scan .none loneFile document).exec p).2) = _
  rw [h]

/-- With the counter after the include, both sessions count to one. -/
theorem next_regardless_of_check_after_include :
    ∃ c t u, (tally [loneInclude, counter] ⟨.empty, .empty, []⟩).check loneFile = (.ok (), c) ∧
      (tally [loneInclude, counter] ⟨.empty, .empty, []⟩).next loneFile 2 = some (.ok none, t) ∧
      c.next loneFile 1 = some (.ok none, u) ∧ t.store = ⟨[("count", .int 1)]⟩ ∧ u.store = t.store := by
  have hcheck : (Walk.check .none loneFile [loneInclude, counter]).exec ⟨.empty, .empty, []⟩ =
      (.ok (), ⟨.empty, loneCache [0], [.included "/a.json" 0 [0]]⟩) := by
    have hs : IncludeCache.empty.size + loneFile.fileCount = 1 := rfl
    rw [Walk.check, exec_bind, exec_get]
    dsimp only
    rw [hs, checkLevels, checkNodes, exec_bind, List.nil_append, exec_checkNode_loneFile]
    rfl
  have hopens : (Walk.scan .none loneFile [loneInclude, counter]).exec ⟨.empty, .empty, []⟩ =
      (.ok (.restart [0]), ⟨.empty, loneCache [0], [.included "/a.json" 0 [0]]⟩) := by
    rw [exec_scan, exec_scanFrom_cons, List.nil_append, exec_scanAt_loneFile]
    rfl
  have hcounts (log : List Event) :
      (tally [loneInclude, counter] ⟨.empty, loneCache [0], log⟩).scan loneFile =
        (.ok .exhausted, tally [loneInclude, counter] ⟨⟨[("count", .int 1)]⟩, loneCache [0], log⟩) := rfl
  have ht : (tally [loneInclude, counter] ⟨.empty, .empty, []⟩).next loneFile 2 = some (.ok none,
      tally [loneInclude, counter]
        ⟨⟨[("count", .int 1)]⟩, loneCache [0], [.included "/a.json" 0 [0]]⟩) := by
    rw [next_eq_some rfl]
    simp only [settle, tally_scan hopens, hcounts]
  have hu : ((tally [loneInclude, counter]
      ⟨.empty, loneCache [0], [.included "/a.json" 0 [0]]⟩).report (.checked 2 1)).next loneFile 1 =
      some (.ok none, tally [loneInclude, counter]
        ⟨⟨[("count", .int 1)]⟩, loneCache [0], [.included "/a.json" 0 [0], .checked 2 1]⟩) := rfl
  have htree : enabledTree (loneCache [0]) [loneInclude, counter] =
      [([0], loneInclude), ([1], counter)] := rfl
  have hordered : (enabledTree (loneCache [0]) [loneInclude, counter]).Pairwise
      (Ordered IncludeCache.empty) := by
    have hk : loneInclude.kindAt [0] = .ok .inclusion := rfl
    simp [htree, Ordered, hk]
  have hnone {s : Session} : Turns (fun _ => loneFile) (fun _ => "") s 0 s := .none
  have hexplored : Explored [loneInclude, counter] ⟨.empty, .empty, []⟩ :=
    .fresh loneFile none .empty []
  have hsame := next_regardless_of_check hexplored rfl (tally_check hcheck) hordered hnone ht hnone hu
  exact ⟨_, _, _, tally_check hcheck, ht, hu, rfl, hsame.2⟩

/-- With the counter before the include, the pass that opens the file counts too. -/
theorem next_counts_before_include :
    ∃ c t u, (tally [counter, loneInclude] ⟨.empty, .empty, []⟩).check loneFile = (.ok (), c) ∧
      (tally [counter, loneInclude] ⟨.empty, .empty, []⟩).next loneFile 2 = some (.ok none, t) ∧
      c.next loneFile 1 = some (.ok none, u) ∧
      t.store = ⟨[("count", .int 2)]⟩ ∧ u.store = ⟨[("count", .int 1)]⟩ := by
  have hcheck : (Walk.check .none loneFile [counter, loneInclude]).exec ⟨.empty, .empty, []⟩ =
      (.ok (), ⟨.empty, loneCache [1], [.included "/a.json" 0 [1]]⟩) := by
    have hs : IncludeCache.empty.size + loneFile.fileCount = 1 := rfl
    have hcounter (p : Progress) :
        (checkNode .none loneFile (checkLevels .none loneFile 1) [0] counter).exec p = (.ok (), p) := rfl
    rw [Walk.check, exec_bind, exec_get]
    dsimp only
    rw [hs, checkLevels, checkNodes, exec_bind, List.nil_append, hcounter]
    dsimp only
    rw [checkNodes, exec_bind, List.nil_append, exec_checkNode_loneFile]
    rfl
  have hopens : (Walk.scan .none loneFile [counter, loneInclude]).exec ⟨.empty, .empty, []⟩ =
      (.ok (.restart [1]), ⟨⟨[("count", .int 1)]⟩, loneCache [1], [.included "/a.json" 0 [1]]⟩) := by
    have hcounter : (scanAt .none loneFile .empty [0] counter).exec ⟨.empty, .empty, []⟩ =
        (.ok .exhausted, ⟨⟨[("count", .int 1)]⟩, .empty, []⟩) := rfl
    rw [exec_scan, exec_scanFrom_cons, List.nil_append, hcounter]
    dsimp only
    rw [exec_scanFrom_cons, List.nil_append, exec_scanAt_loneFile]
    rfl
  have hcounts : (tally [counter, loneInclude]
      ⟨⟨[("count", .int 1)]⟩, loneCache [1], [.included "/a.json" 0 [1]]⟩).scan loneFile =
      (.ok .exhausted, tally [counter, loneInclude]
        ⟨⟨[("count", .int 2)]⟩, loneCache [1], [.included "/a.json" 0 [1]]⟩) := rfl
  have ht : (tally [counter, loneInclude] ⟨.empty, .empty, []⟩).next loneFile 2 = some (.ok none,
      tally [counter, loneInclude]
        ⟨⟨[("count", .int 2)]⟩, loneCache [1], [.included "/a.json" 0 [1]]⟩) := by
    rw [next_eq_some rfl]
    simp only [settle, tally_scan hopens, hcounts]
  have hu : ((tally [counter, loneInclude]
      ⟨.empty, loneCache [1], [.included "/a.json" 0 [1]]⟩).report (.checked 2 1)).next loneFile 1 =
      some (.ok none, tally [counter, loneInclude]
        ⟨⟨[("count", .int 1)]⟩, loneCache [1], [.included "/a.json" 0 [1], .checked 2 1]⟩) := rfl
  exact ⟨_, _, _, tally_check hcheck, ht, hu, rfl, rfl⟩

end Tally

end Session
end Interview
