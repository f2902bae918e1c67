import Interview.Proofs.Walk.Openings

/-! Passes that take nothing away. Without resets and without force a node stores its value only where
nothing stands yet; an update alone puts a new value in the place of an old one. -/

namespace Interview

theorem Settings.not_hasTable {s : Settings} {key : String} (h : s.contains key = false) :
    ¬ s.HasTable key := by
  intro ht
  have hc := contains_iff.mpr (.inr ht)
  rw [h] at hc
  cases hc

namespace Commit

variable {c : Commit} {s t : Settings} {commits : List Commit}

/-- What was there stays, but for the leaf at the key of an update. -/
def Gentle (c : Commit) : Prop :=
  c.before.Keeps c.after fun key => c.item.kind = .update ∧ c.item.key = key

theorem gentle_of_absent (hw : c.before.write c.item.key c.value = (.ok (), c.after))
    (hc : c.before.contains c.item.key = false) : c.Gentle := by
  refine Settings.write_keeps hw (Settings.not_hasTable hc) fun h => ?_
  rw [hc] at h
  cases h

theorem gentle_of_update (hw : c.before.write c.item.key c.value = (.ok (), c.after))
    (ht : ¬ c.before.HasTable c.item.key) (hk : c.item.kind = .update) : c.Gentle :=
  Settings.write_keeps hw ht fun _ => ⟨hk, rfl⟩

theorem Chain.found_later (h : Chain s commits t) (hg : ∀ c ∈ commits, c.Gentle) :
    (s :: commits.map Commit.after).Pairwise
      fun a b => ∀ key, a.contains key = true → b.contains key = true := by
  induction h with
  | nil => simp
  | @cons c rest t _ _ ih =>
    have hrest := ih fun d hd => hg d (List.mem_cons_of_mem _ hd)
    have hc := (hg c List.mem_cons_self).found
    rw [List.map_cons, List.pairwise_cons]
    refine ⟨fun later hl key hk => ?_, hrest⟩
    rcases List.mem_cons.mp hl with rfl | hl
    · exact hc key hk
    · exact (List.pairwise_cons.mp hrest).1 later hl key (hc key hk)

theorem Chain.keeps (h : Chain s commits t) (hg : ∀ c ∈ commits, c.Gentle) :
    s.Keeps t fun key => ∃ c ∈ commits, c.item.kind = .update ∧ c.item.key = key := by
  induction h with
  | nil => exact .refl _ _
  | @cons c rest t _ _ ih =>
    have hrest := ih fun d hd => hg d (List.mem_cons_of_mem _ hd)
    refine ((hg c List.mem_cons_self).mono ?_).trans (hrest.mono ?_)
    · exact fun key hk => ⟨c, List.mem_cons_self, hk⟩
    · rintro key ⟨d, hd, hk⟩
      exact ⟨d, List.mem_cons_of_mem _ hd, hk⟩

end Commit

namespace Walk

variable {sp : SearchPath} {fs : FileSystem} {doc : List Node} {p q : Progress}

theorem mem_tree_grown {old new : IncludeCache} {fresh : WalkPath → Prop} (hg : old.Grown new fresh)
    {v : WalkPath × Node} (h : v ∈ tree old doc) : v ∈ tree new doc :=
  mem_tree_iff.mpr ((mem_tree_iff.mp h).grown hg)

theorem absent_of_isDue {n : Node} {store : Settings} {key : String} (hf : n.force = false)
    (hd : isDue n store key = true) : store.contains key = false := by
  simpa [isDue, hf] using hd

/-- An item that waits for an answer: the node is enabled, and its key is missing or is asked for all
the same. -/
structure Asks (store : Settings) (v : WalkPath × Node) (item : Item) : Prop where
  enabled : v.2.disabled = false
  kind : v.2.kindAt v.1 = .ok item.kind
  interactive : item.kind.isInteractive = true
  place : item.place = v.1
  keyed : v.2.key.isSome
  key : v.2.storeKey item.kind v.1 none store = .ok item.key
  due : isDue v.2 store item.key = true

theorem scan_found {item : Item} (h : (scan sp fs doc).exec p = (.ok (.found item), q)) :
    q.includes = p.includes ∧ ∃ v ∈ tree p.includes doc, Asks q.store v item := by
  obtain ⟨commits, hc⟩ := scan_course sp fs doc p
  rw [h] at hc
  obtain ⟨store, -, -, ⟨hr, -⟩ | ⟨e, hr, -⟩ | ⟨v, hv, hd, hs⟩⟩ := hc.ends
  · cases hr
  · cases hr
  · obtain ⟨rfl, hplace, hk, hi, hkey, hsk, hdue⟩ := stop?_found hs
    exact ⟨rfl, v, hv, hd, hk, hi, hplace, hkey, hsk, hdue⟩

/-- Where nothing is reset and nothing forced, a pass is a chain of commits of enabled nodes, and each of
them leaves what was there. -/
theorem scan_commits (hf : ∀ v ∈ tree p.includes doc, v.2.force = false)
    (hr : ∀ v ∈ tree p.includes doc, v.2.disabled = false → v.2.kindAt v.1 ≠ .ok .reset)
    (sp : SearchPath) (fs : FileSystem) :
    ∃ commits, Commit.Chain p.store commits ((scan sp fs doc).exec p).2.store ∧
      ∀ c ∈ commits, c.Gentle ∧ ∃ v ∈ tree p.includes doc, c.By v := by
  obtain ⟨commits, hc⟩ := scan_course sp fs doc p
  generalize (scan sp fs doc).exec p = ending at hc
  obtain ⟨r, q⟩ := ending
  obtain ⟨store, hchain, hby, hend⟩ := hc.ends
  have hupdates : ∀ c ∈ commits, c.Gentle ∧ ∃ v ∈ tree p.includes doc, c.By v := by
    intro c hc
    obtain ⟨hk, ht, hv⟩ := hby c hc
    exact ⟨Commit.gentle_of_update (hchain.write_of_mem hc) ht hk, hv⟩
  obtain ⟨-, rfl⟩ | ⟨e, -, rfl⟩ | ⟨v, hv, hd, hs⟩ := hend
  · exact ⟨commits, hchain, hupdates⟩
  · exact ⟨commits, hchain, hupdates⟩
  · cases halt_of_stop? hs with
    | failed => exact ⟨commits, hchain, hupdates⟩
    | opened => exact ⟨commits, hchain, hupdates⟩
    | asked => exact ⟨commits, hchain, hupdates⟩
    | reset hk => exact absurd hk (hr v hv hd)
    | @committed kind item value after hk hkind hkey hi hdue hw =>
      obtain ⟨hsk, rfl, hplace⟩ := Item.resolve_eq_ok hi
      have hwrite := Item.write_ok hw
      have habsent := absent_of_isDue (hf v hv) hdue
      refine ⟨commits ++ [⟨item, value, store, after⟩],
        hchain.append (.cons (c := ⟨item, value, store, after⟩) hwrite .nil), fun c hc => ?_⟩
      rcases List.mem_append.mp hc with hc | hc
      · exact hupdates c hc
      · obtain rfl := List.mem_singleton.mp hc
        exact ⟨Commit.gentle_of_absent hwrite habsent, v, hv, hd, hk, hplace, hsk⟩

end Walk
end Interview
