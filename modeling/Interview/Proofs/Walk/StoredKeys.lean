import Interview.Proofs.Item.Acceptance
import Interview.Proofs.Settings.Taking
import Interview.Proofs.Walk.FailingReset

/-! What the keys of a store are made of. A walk writes what its nodes give and deletes, so the tables of
the store have keys of the kinds that they had before and that the nodes give. -/

namespace Interview

open Settings (Keyed)

variable {P : String → Prop}

/-- What a node gives has keys of some kind only, each once in its table. -/
structure Node.Gives (P : String → Prop) (n : Node) : Prop where
  value : ∀ v, n.value = some v → v.Tidy P
  default : ∀ v, n.default = some v → v.Tidy P

theorem Value.tidy_of_isTable {v : Value} (h : v.isTable = false) : v.Tidy P := by
  cases v with
  | table entries => cases h
  | _ => trivial

theorem Value.OfScalarType.isTable {type : ValueType} {v : Value} (h : v.OfScalarType type) :
    v.isTable = false := by
  cases h <;> rfl

theorem Value.OfType.isTable {type : ValueType} {v : Value} (h : v.OfType type) :
    v.isTable = false := by
  have harray : (∃ items, v = .array items) → v.isTable = false := by
    rintro ⟨items, rfl⟩
    rfl
  by_cases hc : type = .csv
  · subst hc
    exact harray h
  by_cases hs : type = .ssv
  · subst hs
    exact harray h
  rcases (ofType_scalar hc hs v).mp h with hv | ⟨items, hi, -⟩
  · exact hv.isTable
  · exact harray ⟨items, hi⟩

namespace Item

variable {item : Item} {given : Option Value} {v : Value}

def Gives (P : String → Prop) (item : Item) : Prop := ∀ v, item.node.default = some v → v.Tidy P

theorem gives_of_resolve {sp : SearchPath} {fs : FileSystem} {n : Node} {kind : Kind}
    {place : WalkPath} {store : Settings} (hn : n.Gives P)
    (h : resolve sp fs n kind place store = .ok item) : item.Gives P := by
  intro v hv
  have hd := default_of_resolve h
  rw [hv] at hd
  unfold resolveDefault at hd
  cases hf : n.defaultFromFile with
  | some path =>
    rw [hf] at hd
    obtain ⟨text, -, ht⟩ := map_eq_ok.mp hd
    rw [← Option.some.inj ht]
    trivial
  | none =>
    rw [hf] at hd
    exact hn.default v (Except.ok.inj hd)

theorem chosen_cases (h : item.chosen given = .ok v) : given = some v ∨ item.node.default = some v := by
  rcases chosen_eq_ok.mp h with ⟨hd, -⟩ | ⟨-, hg, -⟩
  · exact .inr hd
  · exact .inl hg

theorem accept_tidy (hi : item.Gives P) (hg : ∀ w, given = some w → w.Tidy P)
    (h : item.accept given = .ok v) : v.Tidy P := by
  obtain ⟨w, hw, hc, -⟩ := accept_eq_ok h
  cases ht : item.node.type with
  | some type =>
    rw [ht] at hc
    exact Value.tidy_of_isTable (Value.coerce_ofType hc).isTable
  | none =>
    rw [ht] at hc
    obtain rfl : w = v := Except.ok.inj hc
    exact (chosen_cases hw).elim (hg w) (hi w)

theorem write_keyed {s after : Settings} {r : Except Error Value} (hp : ∀ k, Key.Plain k → P k)
    (hs : Keyed P s) (hi : item.Gives P) (hg : ∀ w, given = some w → w.Tidy P)
    (h : item.write s given = (r, after)) : Keyed P after := by
  cases r with
  | error e => exact write_error h ▸ hs
  | ok w =>
    obtain ⟨ha, hw⟩ := write_eq_ok.mp h
    exact hs.write hp (accept_tidy hi hg ha) hw

end Item

namespace Walk

variable {sp : SearchPath} {fs : FileSystem} {n : Node} {kind : Kind} {place : WalkPath}
  {s t : Settings} {p q : Progress}

theorem keyed_of_committed (hp : ∀ k, Key.Plain k → P k) (hs : Keyed P s) (hn : n.Gives P)
    {done : Except Error Unit} (h : committed? sp fs n kind place s = some (done, t)) :
    Keyed P t := by
  rcases committed?_eq_some h with ⟨_, -, rfl⟩ | ⟨-, -, item, value, hr, -, hw⟩
  · exact hs
  · exact Item.write_keyed hp hs (Item.gives_of_resolve hn hr) hn.value hw

theorem deletes_of_cleared {r : Except Error (List String)} (h : cleared n place s = (r, t)) :
    ∃ deleted, s.Deletes deleted t := by
  cases r with
  | ok deleted => exact ⟨deleted, (clears_of_cleared h).deletes⟩
  | error e =>
    have hfails : ∃ deleted, ResetFails .none ⟨[], []⟩ n place s deleted e t := resetFails_of_cleared h
    obtain ⟨deleted, hfails⟩ := hfails
    exact ⟨deleted, hfails.deletes⟩

theorem keyed_of_resetStop? (hp : ∀ k, Key.Plain k → P k) (hs : Keyed P p.store) (hn : n.Gives P)
    {r : Except Error Scan} (h : resetStop? sp fs p place n = some (r, q)) : Keyed P q.store := by
  unfold resetStop? at h
  cases hc : cleared n place p.store with
  | mk outcome store =>
    rw [hc] at h
    obtain ⟨keys, hdel⟩ := deletes_of_cleared hc
    have hstore := hs.deletes hdel
    have hsettled {mid : Progress} {done : Except Error Unit × Settings} (hd : Keyed P done.2)
        (h : settled mid place done = (r, q)) : Keyed P q.store := by
      obtain ⟨-, rfl⟩ := Prod.mk.inj h
      exact hd
    rcases outcome with e | deleted
    · obtain ⟨-, rfl⟩ := Prod.mk.inj (Option.some.inj h)
      exact hstore
    · cases deleted with
      | nil =>
        obtain ⟨⟨done, after⟩, hcommit, h⟩ := Option.map_eq_some_iff.mp h
        exact hsettled (keyed_of_committed hp hs hn hcommit) h
      | cons key rest =>
        dsimp only at h
        cases hcommit : committed? sp fs n .reset place store with
        | none =>
          rw [hcommit] at h
          obtain ⟨-, rfl⟩ := Prod.mk.inj (Option.some.inj h)
          exact hstore
        | some ended =>
          obtain ⟨done, after⟩ := ended
          rw [hcommit] at h
          exact hsettled (keyed_of_committed hp hstore hn hcommit) (Option.some.inj h)

/-- The node that ends a pass keeps the kinds of keys, and so does the item that it asks for. -/
theorem keyed_of_stop? (hp : ∀ k, Key.Plain k → P k) (hs : Keyed P p.store) (hn : n.Gives P)
    {r : Except Error Scan} (h : stop? sp fs p place n = some (r, q)) :
    Keyed P q.store ∧ ∀ item, r = .ok (.found item) → item.Gives P := by
  cases halt_of_stop? h with
  | failed => exact ⟨hs, fun item hi => by cases hi⟩
  | committed _ _ _ hr _ hw =>
    exact ⟨Item.write_keyed hp hs (Item.gives_of_resolve hn hr) hn.value hw, fun item hi => by cases hi⟩
  | opened => exact ⟨hs, fun item hi => by cases hi⟩
  | @asked kind item hk hi ha =>
    refine ⟨hs, fun found hf => ?_⟩
    cases hf
    exact Item.gives_of_resolve hn (resolve_of_asked? ha).2.1
  | reset hk =>
    have hreset : resetStop? sp fs p place n = some (r, q) := by simpa only [stop?, hk] using h
    refine ⟨keyed_of_resetStop? hp hs hn hreset, fun item hi => ?_⟩
    subst hi
    obtain ⟨-, -, hkind, hasks, -⟩ := stop?_found h
    rw [hk] at hkind
    rw [← Except.ok.inj hkind] at hasks
    cases hasks

theorem keyed_of_raised (hp : ∀ k, Key.Plain k → P k) (hs : Keyed P s) (hn : n.Gives P) {item : Item}
    {total : Int64} {value : Value} (hr : raised sp fs n place s = .ok (item, total))
    (hw : item.write s (some (.int total)) = (.ok value, t)) : Keyed P t := by
  refine Item.write_keyed hp hs (Item.gives_of_resolve hn (resolve_of_raised hr).1) (fun w hg => ?_) hw
  rw [← Option.some.inj hg]
  trivial

theorem Course.keyed {nodes : List (WalkPath × Node)} {commits : List Commit}
    {ending : Except Error Scan × Progress} (hp : ∀ k, Key.Plain k → P k)
    (h : Course sp fs nodes p commits ending) (hs : Keyed P p.store)
    (hn : ∀ v ∈ nodes, v.2.Gives P) :
    Keyed P ending.2.store ∧ ∀ item, ending.1 = .ok (.found item) → item.Gives P := by
  induction h with
  | done => exact ⟨hs, fun item hi => by cases hi⟩
  | pass _ ih => exact ih hs (List.forall_mem_cons.mp hn).2
  | count _ _ hr hw _ ih =>
    obtain ⟨hv, hrest⟩ := List.forall_mem_cons.mp hn
    exact ih (keyed_of_raised hp hs hv hr hw) hrest
  | fail => exact ⟨hs, fun item hi => by cases hi⟩
  | stop _ hstop => exact keyed_of_stop? hp hs (List.forall_mem_cons.mp hn).1 hstop

theorem scan_keyed {doc : List Node} {r : Except Error Scan} (hp : ∀ k, Key.Plain k → P k)
    (h : (scan sp fs doc).exec p = (r, q)) (hs : Keyed P p.store)
    (hn : ∀ v ∈ tree p.includes doc, v.2.Gives P) :
    Keyed P q.store ∧ ∀ item, r = .ok (.found item) → item.Gives P := by
  obtain ⟨commits, hc⟩ := scan_course sp fs doc p
  rw [h] at hc
  exact hc.keyed hp hs hn

theorem Visits.keyed {start visited todo : List (WalkPath × Node)} {commits : List Commit}
    (hp : ∀ k, Key.Plain k → P k) (h : Visits sp fs start p visited commits todo q)
    (hs : Keyed P p.store) (hn : ∀ v ∈ visited, v.2.Gives P) : Keyed P q.store := by
  induction h with
  | here => exact hs
  | skip _ _ ih => exact ih hs hn
  | pass _ _ _ _ ih => exact ih hs (List.forall_mem_cons.mp hn).2
  | count _ _ hr hw _ ih =>
    obtain ⟨hv, hrest⟩ := List.forall_mem_cons.mp hn
    exact ih (keyed_of_raised hp hs hv hr hw) hrest

end Walk
end Interview
