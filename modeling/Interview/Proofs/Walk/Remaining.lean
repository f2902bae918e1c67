import Interview.Proofs.Walk.Preflight
import Interview.Proofs.Walk.Retention

/-! What is left to commit. A node has one key, or two of them if its counter is missing: the one that it
has as long as the counter counts as zero, and the one that it has once the counter is there. Without
updates, resets and force a counter never changes again, so a pass that repeats has used up one of the
keys. -/

namespace Interview

namespace Node

def awaitsCounter (n : Node) (store : Settings) : Bool :=
  match n.parameterize with
  | some counterKey => !store.contains counterKey
  | none => false

/-- How many values a node can still commit. -/
def remaining (n : Node) (store : Settings) : Nat :=
  (match n.storeKey .set [] none store with
    | .ok key => if store.contains key then 0 else 1
    | .error _ => 0) + if n.awaitsCounter store then 1 else 0

theorem remaining_le_two (n : Node) (store : Settings) : n.remaining store ≤ 2 := by
  unfold remaining
  split
  · split <;> split <;> omega
  · split <;> omega

variable {store after : Settings} {n : Node} {kind : Kind} {place : WalkPath} {key : String}

theorem counter_eq_ok_iff (h : store.Keeps after fun _ => False) {counterKey : String}
    (hc : after.contains counterKey = store.contains counterKey) {count : Int64} :
    counter counterKey after = .ok count ↔ counter counterKey store = .ok count := by
  unfold counter
  cases hs : store.get? counterKey with
  | none =>
    have ha : after.get? counterKey = none := by
      simpa [Settings.contains, hs] using hc
    rw [ha]
  | some v =>
    rcases Settings.leaf?_or_table hs with hl | ht
    · have ha := (Settings.leaf?_eq_some.mp (h.leaf counterKey v (fun hf => hf) hl)).1
      rw [ha]
    · obtain ⟨entries, he⟩ := h.table counterKey ht
      obtain ⟨entries', he'⟩ := ht
      rw [hs] at he'
      obtain rfl := Option.some.inj he'
      rw [he]
      simp [Value.toInteger]

theorem storeKey_of_key {own : String} (hk : n.key = some own) :
    n.storeKey kind place none store =
      match n.parameterize with
      | none => .ok (n.sectionedKey own)
      | some counterKey => (counter counterKey store).map fun count =>
          n.sectionedKey own ++ "." ++ String.ofList (Number.intText count.toInt) := by
  unfold storeKey
  rw [hk]
  cases n.parameterize with
  | none => rfl
  | some counterKey =>
    simp only [bind, Except.bind]
    cases counter counterKey store <;> rfl

theorem storeKey_of_keyless (hk : n.key = none) :
    n.storeKey kind place none store = .error (.missingField "key" kind place) := by
  unfold storeKey
  rw [hk]
  rfl

theorem storeKey_eq_ok_iff (h : store.Keeps after fun _ => False)
    (hc : n.awaitsCounter after = n.awaitsCounter store) :
    n.storeKey kind place none after = .ok key ↔ n.storeKey kind place none store = .ok key := by
  cases hk : n.key with
  | none => simp [storeKey_of_keyless hk]
  | some own =>
    rw [storeKey_of_key hk, storeKey_of_key hk]
    cases hp : n.parameterize with
    | none => exact Iff.rfl
    | some counterKey =>
      have hsame : after.contains counterKey = store.contains counterKey := by
        simpa [awaitsCounter, hp] using hc
      simp only [map_eq_ok, counter_eq_ok_iff h hsame]

theorem awaitsCounter_of_keeps (h : store.Keeps after fun _ => False)
    (hc : n.awaitsCounter after = true) : n.awaitsCounter store = true := by
  unfold awaitsCounter at hc ⊢
  cases hp : n.parameterize with
  | none => simp [hp] at hc
  | some counterKey =>
    simp only [hp, Bool.not_eq_true'] at hc ⊢
    cases hs : store.contains counterKey with
    | false => rfl
    | true => simp [h.found counterKey hs] at hc

def isMissing (n : Node) (store : Settings) : Prop :=
  ∃ key, n.storeKey .set [] none store = .ok key ∧ store.contains key = false

theorem remaining_of_missing (h : n.isMissing store) :
    n.remaining store = 1 + if n.awaitsCounter store then 1 else 0 := by
  obtain ⟨key, hk, hc⟩ := h
  simp [remaining, hk, hc]

theorem remaining_of_not_missing (h : ¬ n.isMissing store) :
    n.remaining store = if n.awaitsCounter store then 1 else 0 := by
  unfold remaining
  cases hk : n.storeKey .set [] none store with
  | error e => simp
  | ok key =>
    cases hc : store.contains key with
    | true => simp [hc]
    | false => exact absurd ⟨key, hk, hc⟩ h

theorem isMissing_of_keeps (h : store.Keeps after fun _ => False)
    (hc : n.awaitsCounter after = n.awaitsCounter store) (hm : n.isMissing after) :
    n.isMissing store := by
  obtain ⟨key, hk, hc'⟩ := hm
  refine ⟨key, (storeKey_eq_ok_iff h hc).mp hk, ?_⟩
  cases hs : store.contains key with
  | false => rfl
  | true => simp [h.found key hs] at hc'

theorem remaining_anti (h : store.Keeps after fun _ => False) (n : Node) :
    n.remaining after ≤ n.remaining store := by
  by_cases hm : n.isMissing after
  · rw [remaining_of_missing hm]
    cases ha : n.awaitsCounter after with
    | true =>
      have hs := awaitsCounter_of_keeps h ha
      rw [remaining_of_missing (isMissing_of_keeps h (ha.trans hs.symm) hm), hs]
    | false =>
      cases hs : n.awaitsCounter store with
      | true =>
        have hle : 1 ≤ n.remaining store := by
          simp [remaining, hs]
        simpa using hle
      | false =>
        rw [remaining_of_missing (isMissing_of_keeps h (ha.trans hs.symm) hm), hs]
  · rw [remaining_of_not_missing hm]
    cases ha : n.awaitsCounter after with
    | true =>
      have hs := awaitsCounter_of_keeps h ha
      simp [remaining, hs]
    | false => simp

theorem not_isMissing_of_found (h : store.Keeps after fun _ => False)
    (hc : n.awaitsCounter after = n.awaitsCounter store)
    (hk : n.storeKey .set [] none store = .ok key) (ha : after.contains key = true) :
    ¬ n.isMissing after := by
  rintro ⟨other, ho, hother⟩
  rw [storeKey_eq_ok_iff h hc, hk] at ho
  rw [← Except.ok.inj ho, ha] at hother
  cases hother

/-- A commit of a node uses up one of its keys. -/
theorem remaining_lt (h : store.Keeps after fun _ => False)
    (hk : n.storeKey .set [] none store = .ok key) (hs : store.contains key = false)
    (ha : after.contains key = true) : n.remaining after < n.remaining store := by
  rw [remaining_of_missing ⟨key, hk, hs⟩]
  cases hca : n.awaitsCounter after with
  | true =>
    have hcs := awaitsCounter_of_keeps h hca
    rw [remaining_of_not_missing (not_isMissing_of_found h (hca.trans hcs.symm) hk ha), hca, hcs]
    decide
  | false =>
    cases hcs : n.awaitsCounter store with
    | true =>
      have hle : n.remaining after ≤ 1 := by
        unfold remaining
        rw [hca]
        split
        · split <;> simp
        · simp
      simpa using Nat.lt_succ_of_le hle
    | false =>
      rw [remaining_of_not_missing (not_isMissing_of_found h (hca.trans hcs.symm) hk ha), hca]
      decide

theorem storeKey_any_kind (h : n.storeKey kind place none store = .ok key) (other : Kind)
    (at_ : WalkPath) : n.storeKey other at_ none store = .ok key := by
  cases hk : n.key with
  | none => simp [storeKey_of_keyless hk] at h
  | some own =>
    rw [storeKey_of_key hk] at h ⊢
    exact h

end Node

namespace Walk

variable {sp : SearchPath} {fs : FileSystem} {doc : List Node} {p q : Progress}

theorem Checked.cached_of_mem {cache : IncludeCache} {parent : WalkPath} {index : Nat}
    {nodes : List Node} (h : Checked cache parent index nodes) {v : WalkPath × Node}
    (hv : v ∈ treeFrom cache parent index nodes) (hk : v.2.kindAt v.1 = .ok .inclusion) :
    (cache.nodes? v.1).isSome := by
  induction h with
  | done => simp [treeFrom_nil] at hv
  | node hkind _ hc _ _ ihi ihr =>
    rw [treeFrom_cons] at hv
    rcases List.mem_cons.mp hv with rfl | hv
    · rw [hkind] at hk
      exact hc (Except.ok.inj hk)
    · exact (List.mem_append.mp hv).elim ihi ihr

/-- A commit of a branch or a set, the value of which is missing. -/
structure Fills (p : Progress) (v : WalkPath × Node) (after : Settings) : Prop where
  kind : v.2.kindAt v.1 = .ok .branch ∨ v.2.kindAt v.1 = .ok .set
  keyed : v.2.key.isSome
  key : ∃ key, v.2.storeKey .set [] none p.store = .ok key ∧ p.store.contains key = false ∧
    after.contains key = true
  keeps : p.store.Keeps after fun _ => False

/-- A pass without resets, updates, force and unopened documents changes nothing, or a branch or a set
commits its value and the pass is to be repeated. -/
theorem scan_quiet (hc : Checked p.includes [] 0 doc)
    (hf : ∀ v ∈ tree p.includes doc, v.2.force = false)
    (hd : ∀ v ∈ tree p.includes doc, v.2.disabled = false →
      v.2.kindAt v.1 ≠ .ok .reset ∧ v.2.kindAt v.1 ≠ .ok .update)
    (sp : SearchPath) (fs : FileSystem) :
    (((scan sp fs doc).exec p).2.store = p.store ∧
      ∀ place, ((scan sp fs doc).exec p).1 ≠ .ok (.restart place)) ∨
    ∃ v ∈ tree p.includes doc, Fills p v ((scan sp fs doc).exec p).2.store := by
  obtain ⟨commits, hcourse⟩ := scan_course sp fs doc p
  generalize (scan sp fs doc).exec p = ending at hcourse
  obtain ⟨r, q⟩ := ending
  obtain ⟨store, hchain, hby, hend⟩ := hcourse.ends
  have hnone : commits = [] := by
    refine List.eq_nil_iff_forall_not_mem.mpr fun c hm => ?_
    obtain ⟨hk, -, v, hv, hb⟩ := hby c hm
    exact (hd v hv hb.enabled).2 (hk ▸ hb.kind)
  subst hnone
  obtain rfl := hchain.eq_of_nil
  obtain ⟨rfl, rfl⟩ | ⟨e, rfl, rfl⟩ | ⟨v, hv, hdis, hs⟩ := hend
  · exact .inl ⟨rfl, by simp⟩
  · exact .inl ⟨rfl, by simp⟩
  · cases halt_of_stop? hs with
    | failed => exact .inl ⟨rfl, by simp⟩
    | asked => exact .inl ⟨rfl, by simp⟩
    | reset hk => exact absurd hk (hd v hv hdis).1
    | opened hk hn =>
      have hcached := hc.cached_of_mem hv hk
      simp [hn] at hcached
    | @committed kind item value after hk hkind hkey hi hdue hw =>
      obtain ⟨hsk, -, -⟩ := Item.resolve_eq_ok hi
      have hwrite := Item.write_ok hw
      have habsent := absent_of_isDue (hf v hv) hdue
      refine .inr ⟨v, hv, ?_, hkey, ⟨item.key, Node.storeKey_any_kind hsk _ _, habsent,
        Settings.contains_write_self hwrite⟩, ?_⟩
      · rcases hkind with rfl | rfl
        · exact .inl hk
        · exact .inr hk
      · refine Settings.write_keeps hwrite (Settings.not_hasTable habsent) fun h => ?_
        rw [habsent] at h
        cases h

end Walk
end Interview
