import Interview.Proofs.Session.Conversation
import Interview.Proofs.Walk.Expansion
import Interview.Proofs.Walk.PatternReset
import Interview.Proofs.Walk.StoredKeys

/-! Resets by a pattern in the course of a session. What a session stores comes from its document and from
replies, and only a table that a node gives can bring keys with dots in, which no reset by a pattern
finds again. -/

namespace Interview

open Settings (Keyed)

variable {P : String → Prop}

namespace Conversation

variable {a b : Conversation}

/-- The store has keys of some kind only, and so has the default of the pending item. -/
structure Clean (P : String → Prop) (a : Conversation) : Prop where
  store : Keyed P a.session.store
  pending : ∀ item, a.pending = some item → item.Gives P

theorem Step.clean (hp : ∀ k, Key.Plain k → P k) (h : Step a b) (hn : ∀ v ∈ b.nodes, v.2.Gives P)
    (ha : Clean P a) : Clean P b := by
  have hna : ∀ v ∈ a.nodes, v.2.Gives P := fun v hv => hn v (h.nodes_subset hv)
  cases h with
  | pass hscan =>
    obtain ⟨hstore, hfound⟩ := Walk.scan_keyed hp (Session.exec_of_scan hscan) ha.store hna
    exact ⟨hstore, fun item hi => hfound item (Session.foundIn_eq_some hi)⟩
  | @answer item reply value t hpending hanswer =>
    obtain ⟨store, hw, rfl⟩ := Session.answer_eq_ok hanswer
    refine ⟨Item.write_keyed hp ha.store (ha.pending item hpending) (fun w hg => ?_) hw,
      fun item hi => by cases hi⟩
    rw [← Option.some.inj hg]
    trivial

theorem Leads.clean (hp : ∀ k, Key.Plain k → P k) (h : Leads a b) (hn : ∀ v ∈ b.nodes, v.2.Gives P)
    (ha : Clean P a) : Clean P b := by
  induction h with
  | refl => exact ha
  | tail _ hs ih => exact hs.clean hp hn (ih fun v hv => hn v (hs.nodes_subset hv))

end Conversation

namespace Session

variable {s t : Session} {fs : FileSystem}

def nodes (s : Session) : List (WalkPath × Node) := Walk.tree s.progress.includes s.document

theorem next_nodes {patience : Nat} {r : Except Error (Option Item)}
    (h : s.next fs patience = some (r, t)) : s.nodes ⊆ t.nodes := by
  obtain ⟨_, hl⟩ := Conversation.leads_next (a := .opening s) h
  exact hl.nodes_subset

theorem next_keyed (hp : ∀ k, Key.Plain k → P k) {patience : Nat} {r : Except Error (Option Item)}
    (h : s.next fs patience = some (r, t)) (hs : Keyed P s.store) (hn : ∀ v ∈ t.nodes, v.2.Gives P) :
    Keyed P t.store ∧ ∀ item, itemOf r = some item → item.Gives P := by
  obtain ⟨_, hl⟩ := Conversation.leads_next (a := .opening s) h
  have hc := hl.clean hp hn ⟨hs, fun item hi => by cases hi⟩
  exact ⟨hc.store, hc.pending⟩

theorem check_progress {r : Except Error Unit} (h : s.check fs = (r, t)) :
    t.document = s.document ∧ t.store = s.store ∧
      t.progress.includes = ((Walk.check s.search fs s.document).exec s.progress).2.includes := by
  obtain ⟨log, rfl⟩ := check_session h
  exact ⟨rfl, Walk.check_unwritten s.document s.progress, rfl⟩

theorem check_nodes {r : Except Error Unit} (h : s.check fs = (r, t)) : s.nodes ⊆ t.nodes := by
  obtain ⟨hdoc, -, hincludes⟩ := check_progress h
  intro v hv
  rw [nodes, hdoc, hincludes]
  exact Walk.mem_tree_grown (Walk.check_explores s.search fs s.document s.progress).grown hv

def Pass (s t : Session) : Prop := ∃ fs, (s.scan fs).2 = t

end Session

/-- A session in the hands of a caller, with the items that were handed out so far. -/
structure Dealings where
  session : Session
  items : List Item

namespace Dealings

open Session (itemOf)

variable {a b : Dealings}

/-- What a caller does: asks for the next item, answers one of those that it has, or has the document
examined. Each may fail. -/
inductive Step (a : Dealings) : Dealings → Prop
  | next {fs : FileSystem} {patience : Nat} {r : Except Error (Option Item)} {t : Session} :
    a.session.next fs patience = some (r, t) → Step a ⟨t, a.items ++ (itemOf r).toList⟩
  | answer {item : Item} {reply : String} {r : Except Error Value} {t : Session} :
    item ∈ a.items → a.session.answer item reply = (r, t) → Step a ⟨t, a.items⟩
  | check {fs : FileSystem} {r : Except Error Unit} {t : Session} :
    a.session.check fs = (r, t) → Step a ⟨t, a.items⟩

abbrev Leads := Relation.ReflTransGen Step

structure Clean (P : String → Prop) (a : Dealings) : Prop where
  store : Keyed P a.session.store
  items : ∀ item ∈ a.items, item.Gives P

theorem Step.nodes_subset (h : Step a b) : a.session.nodes ⊆ b.session.nodes := by
  cases h with
  | next h => exact Session.next_nodes h
  | answer _ h =>
    obtain ⟨-, rfl⟩ := Prod.mk.inj h
    exact List.Subset.refl _
  | check h => exact Session.check_nodes h

theorem Step.clean (hp : ∀ k, Key.Plain k → P k) (h : Step a b)
    (hn : ∀ v ∈ b.session.nodes, v.2.Gives P) (ha : Clean P a) : Clean P b := by
  cases h with
  | next h =>
    obtain ⟨hstore, hitem⟩ := Session.next_keyed hp h ha.store hn
    refine ⟨hstore, fun item hi => ?_⟩
    rcases List.mem_append.mp hi with hi | hi
    · exact ha.items item hi
    · exact hitem item (Option.mem_toList.mp hi)
  | @answer item reply r t hitem h =>
    obtain ⟨-, rfl⟩ := Prod.mk.inj h
    refine ⟨Item.write_keyed hp ha.store (ha.items item hitem) (fun w hg => ?_) rfl, ha.items⟩
    rw [← Option.some.inj hg]
    trivial
  | check h =>
    obtain ⟨-, hstore, -⟩ := Session.check_progress h
    exact ⟨hstore ▸ ha.store, ha.items⟩

theorem Leads.clean (hp : ∀ k, Key.Plain k → P k) (h : Leads a b)
    (hn : ∀ v ∈ b.session.nodes, v.2.Gives P) (ha : Clean P a) : Clean P b := by
  induction h with
  | refl => exact ha
  | tail _ hs ih => exact hs.clean hp hn (ih fun v hv => hn v (hs.nodes_subset hv))

end Dealings

namespace Session

variable {s t : Session}

theorem passes_nodes (h : Relation.ReflTransGen Pass s t) : s.nodes ⊆ t.nodes := by
  induction h with
  | refl => exact List.Subset.refl _
  | @tail mid _ _ hpass ih =>
    obtain ⟨fs, rfl⟩ := hpass
    refine List.Subset.trans ih fun v hv => ?_
    exact Walk.mem_tree_grown (Walk.scan_explores mid.search fs mid.document mid.progress).grown hv

theorem passes_keyed (hp : ∀ k, Key.Plain k → P k) (h : Relation.ReflTransGen Pass s t)
    (hs : Keyed P s.store) (hn : ∀ v ∈ t.nodes, v.2.Gives P) : Keyed P t.store := by
  induction h with
  | refl => exact hs
  | @tail mid _ _ hpass ih =>
    have hsub := passes_nodes (.single hpass)
    obtain ⟨fs, rfl⟩ := hpass
    have hmid := ih fun v hv => hn v (hsub hv)
    exact (Walk.scan_keyed hp (exec_of_scan (r := (mid.scan fs).1) rfl) hmid
      fun v hv => hn v (hsub hv)).1

/-- The store at a node that a pass comes to, in a session that started with a store like one that is
read from a file. -/
theorem keyed_at_visit {a : Dealings} {visited todo : List (WalkPath × Node)} {commits : List Commit}
    {mid : Progress} {fs : FileSystem} (hp : ∀ k, Key.Plain k → P k)
    (hstart : s.store = .empty ∨ ∃ entries, Settings.ofDotted entries = .ok s.store)
    (hd : Dealings.Leads ⟨s, []⟩ a) (hpass : Relation.ReflTransGen Pass a.session t)
    (hv : Walk.Visits t.search fs (Walk.placed [] 0 t.document) t.progress visited commits todo mid)
    (hn : ∀ v ∈ t.nodes, v.2.Gives P) : Keyed P mid.store := by
  have hs : Keyed P s.store := by
    rcases hstart with he | ⟨entries, he⟩
    · rw [he]
      exact .of_plain trivial hp
    · exact .ofDotted he hp
  have ha := hd.clean hp (fun v hv => hn v (passes_nodes hpass hv)) ⟨hs, by simp⟩
  have ht := passes_keyed hp hpass ha.store hn
  have hvisited : ∀ v ∈ visited, v.2.Gives P := by
    intro v hm
    have hsub := hv.sublist
    rw [Walk.opened_placed, ← Walk.tree_eq] at hsub
    exact hn v (hsub.subset (List.mem_append_left todo hm))
  exact hv.keyed hp ht hvisited

open Walk in
/-- A reset by a pattern that a pass comes to deletes exactly the leaves with matching keys, and leaves
the values and the order of the others, as long as none of those leaves stands below a key with a dot.
Such a key comes from a table that the document gives as a value, so without them every reset by a
pattern is exact. -/
theorem pattern_reset_exact_iff {a : Dealings} {visited todo : List (WalkPath × Node)}
    {commits : List Commit} {mid : Progress} {fs : FileSystem} {place : WalkPath} {n : Node}
    {source : String} {pattern : Pattern}
    (hstart : s.store = .empty ∨ ∃ entries, Settings.ofDotted entries = .ok s.store)
    (hd : Dealings.Leads ⟨s, []⟩ a) (hpass : Relation.ReflTransGen Pass a.session t)
    (hv : Visits t.search fs (placed [] 0 t.document) t.progress visited commits ((place, n) :: todo) mid)
    (hkeys : n.resetKeys = none) (hregexp : n.resetKeyRegexp = some source)
    (hc : compilePattern source = .ok pattern)
    (honce : ∀ v ∈ t.nodes, v.2.Gives fun _ => True) :
    ∃ deleted after, (deleteTargets n place).exec mid = (deleted, { mid with store := after }) ∧
      (Exact pattern mid.store deleted after ↔ Undotted pattern mid.store) ∧
      ((∀ v ∈ t.nodes, v.2.Gives fun k => '.' ∉ k.toList) → Exact pattern mid.store deleted after) := by
  have hexec := exec_deleteTargets n place mid
  have hcleared : cleared n place mid.store = clearedMatching pattern mid.store.keys mid.store := by
    simp only [cleared, hkeys, hregexp, hc]
  rw [hcleared] at hexec
  refine ⟨_, _, hexec, ?_, fun hdots => ?_⟩
  · exact exact_iff (keyed_at_visit (fun _ _ => trivial) hstart hd hpass hv honce)
  · have hkeyed := keyed_at_visit (fun _ hk => hk.2) hstart hd hpass hv hdots
    refine exact_of_undotted hkeyed fun e he _ => ?_
    have hl := (mem_entryPaths hkeyed.tidy).mp he
    exact (Table.names_of_find? hkeyed.tidy (Table.leaf?_eq_some.mp hl).1).2

def storing (entries : Table) : Node :=
  { kind := some "set", key := some "a", value := some (.table entries) }

def sweeping : Node := { kind := some "reset", resetKeyRegexp := some "^a" }

/-- One pass stores a table, and the next one is to delete all that begins with its key. -/
def clearing (entries : Table) (progress : Progress) : Session where
  document := [storing entries, sweeping]
  unknownFields := []
  search := .none
  ceiling := 10
  strict := false
  progress := progress

theorem clearing_gives {entries : Table} (h : EntriesTidy P entries) {progress : Progress}
    (hn : nodes (clearing entries progress) = [([0], storing entries), ([1], sweeping)]) :
    ∀ v ∈ nodes (clearing entries progress), v.2.Gives P := by
  rw [hn]
  intro v hv
  rcases List.mem_cons.mp hv with rfl | hv
  · refine ⟨fun w hw => ?_, fun w hw => by cases hw⟩
    rw [← Option.some.inj hw]
    exact h
  · rw [List.mem_singleton.mp hv]
    constructor
    · intro w hw
      cases hw
    · intro w hw
      cases hw

theorem pattern_reset_exact_without_dots :
    let mid : Progress := ⟨⟨[("a", .table [("b", .int 1)])]⟩, .empty, []⟩
    ∃ pattern deleted after, compilePattern "^a" = .ok pattern ∧
      (Walk.deleteTargets sweeping [1]).exec mid = (deleted, { mid with store := after }) ∧
        Walk.Exact pattern mid.store deleted after := by
  intro mid
  have hcompiles : (compilePattern "^a").isOk = true := by decide +kernel
  cases hc : compilePattern "^a" with
  | error e => simp [hc, Except.isOk, Except.toBool] at hcompiles
  | ok pattern =>
    have hpass : Pass (clearing [("b", .int 1)] ⟨.empty, .empty, []⟩) (clearing [("b", .int 1)] mid) :=
      ⟨⟨[], []⟩, rfl⟩
    have hset : (storing [("b", .int 1)]).kindAt [0] = .ok .set := rfl
    have hv : Walk.Visits .none ⟨[], []⟩ (Walk.placed [] 0 [storing [("b", .int 1)], sweeping]) mid
        [([0], storing [("b", .int 1)])] [] [([1], sweeping)] mid :=
      .pass rfl (fun hk => by cases hset.symm.trans hk) rfl .here
    have honce : EntriesTidy (fun _ => True) [("b", .int 1)] := by simp [EntriesTidy, Value.Tidy]
    have hdots : EntriesTidy (fun k => '.' ∉ k.toList) [("b", .int 1)] := by
      simp [EntriesTidy, Value.Tidy]
    obtain ⟨deleted, after, hexec, -, hexact⟩ := pattern_reset_exact_iff (.inl rfl) .refl
      (.single hpass) hv rfl rfl hc (clearing_gives honce rfl)
    exact ⟨pattern, deleted, after, rfl, hexec, hexact (clearing_gives hdots rfl)⟩

/-- A key with a dot is taken for two by the deletion, so it fails. -/
theorem pattern_reset_misses_dotted_key :
    ∃ t, (clearing [("x.y", .int 1)] ⟨.empty, .empty, []⟩).next ⟨[], []⟩ 0 =
        some (.error (.keyNotFound "a.x.y"), t) ∧ t.store.leaves = [("a.x.y", .int 1)] :=
  ⟨_, rfl, rfl⟩

end Session
end Interview
