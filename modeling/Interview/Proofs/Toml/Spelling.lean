import Interview.Proofs.Settings.Merging
import Interview.Proofs.Toml.Patched

/-! Which documents give back the store they were written from. Every leaf has to be spelled in one place
only: in its own, where an inline table leaves room for it, or at a kept key that says the same in
another way. -/

namespace Interview.Toml

open Interview.Key (Plain segments)

/-- A place where a leaf of the store shows after it was put in its own: there, if there is room, or
wherever keys with dots lead to it. -/
def Spells (kept : Entries) (path : List String) (v : Value) (q : List String) (u : Value) : Prop :=
  (q = path ∧ u = v ∧ roomFor false path kept = true) ∨
    (q ≠ path ∧ q.flatMap segments = path ∧ leafAt? false q kept = some u)

/-- The leaf shows in one place only, and with its value. -/
def SpelledOnce (kept : Entries) (path : List String) (v : Value) : Prop :=
  ∃ q u, Spells kept path v q u ∧ u.settled = v.settled ∧
    ∀ q' u', Spells kept path v q' u' → q' = q

/-- The table has the leaves that the document shows, and no other tables than it. -/
structure Shows (t : Table) (l : Layout) : Prop where
  distinct : EntriesTidy (fun _ => True) t
  leaf : ∀ path, (t.leaf? path).map Value.settled =
    (leafAt? false path l.entries).map Value.settled
  table : ∀ path entries, t.find? path = some (.table entries) → tableAt false path l.entries = true

theorem spelledOnce_iff_roomFor {kept : Entries} {path : List String} {v : Value}
    (h : ∀ q, q ≠ path → q.flatMap segments = path → leafAt? false q kept = none) :
    SpelledOnce kept path v ↔ roomFor false path kept = true := by
  have hown {q : List String} {u : Value} (hs : Spells kept path v q u) :
      q = path ∧ roomFor false path kept = true := by
    rcases hs with ⟨hq, -, hr⟩ | ⟨hne, hq, hk⟩
    · exact ⟨hq, hr⟩
    · rw [h q hne hq] at hk
      cases hk
  constructor
  · rintro ⟨q, u, hs, -⟩
    exact (hown hs).2
  · intro hr
    exact ⟨path, v, .inl ⟨rfl, rfl, hr⟩, rfl, fun q u hs => (hown hs).1⟩

variable {store : Settings} {l : Layout}

theorem spells_iff (h : EntriesTidy Plain store.root) {path : List String} {v : Value}
    (hl : store.root.leaf? path = some v) {q : List String} {u : Value} :
    Spells (l.kept store) path v q u ↔
      leafAt? false q (l.patched store).entries = some u ∧ q.flatMap segments = path := by
  have hplain {p : List String} {w : Value} (hp : store.root.leaf? p = some w) :
      p.flatMap segments = p :=
    Interview.Key.flatMap_segments (Table.names_of_find? h (Table.leaf?_eq_some.mp hp).1).2
  rw [leafAt?_patched h]
  constructor
  · rintro (⟨rfl, rfl, hr⟩ | ⟨hne, hpath, hk⟩)
    · simp [hl, hr, hplain hl]
    · have hq : store.root.leaf? q = none := by
        cases hq : store.root.leaf? q with
        | none => rfl
        | some w => exact absurd ((hplain hq).symm.trans hpath) hne
      simp [hq, hk, hpath]
  · rintro ⟨hs, hpath⟩
    cases hq : store.root.leaf? q with
    | some w =>
      have heq : q = path := (hplain hq).symm.trans hpath
      obtain rfl : v = w := by simpa [← heq, hq, eq_comm] using hl
      rw [hq] at hs
      simp only [Option.ite_none_right_eq_some, Option.some.injEq] at hs
      exact .inl ⟨heq, hs.2.symm, heq ▸ hs.1⟩
    | none =>
      rw [hq] at hs
      refine .inr ⟨fun heq => ?_, hpath, hs⟩
      rw [heq, hl] at hq
      cases hq

section Shows

variable {t : Table}

theorem Shows.found (hs : Shows t (l.patched store)) (h : EntriesTidy Plain store.root)
    (ht : EntriesTidy (· ≠ "") t) {e : List String × Option Value} (he : e ∈ t.dottedEnds) :
    ∃ w, store.root.find? e.1 = some w ∧ (e.2 ≠ none ↔ w.isTable = false) := by
  obtain ⟨⟨q, o⟩, hm, rfl⟩ := List.mem_map.mp he
  obtain ⟨_, rfl, hend⟩ := (mem_entryEnds ht).mp hm
  obtain ⟨w, hf, hw⟩ := Option.bind_eq_some_iff.mp hend
  have hq := (Table.names_of_find? ht hf).2
  cases o with
  | some u =>
    have hl := hs.leaf q
    rw [Table.leaf?_iff_end?.mpr hend] at hl
    obtain ⟨u', hshown, -⟩ := Option.map_eq_some_iff.mp hl.symm
    obtain ⟨v, hv⟩ := leaf_of_shown h hq hshown
    obtain ⟨hfound, hleaf⟩ := Table.leaf?_eq_some.mp hv
    exact ⟨v, hfound, by simp [dotted, hleaf]⟩
  | none =>
    obtain rfl := Value.end?_eq_some_none.mp hw
    obtain ⟨entries, hfound⟩ := table_of_shown h hq (hs.table q [] hf)
    exact ⟨_, hfound, by simp [dotted, Value.isTable]⟩

/-- The table spells a leaf where the document does, with the same value but for not-a-number. -/
theorem Shows.spelled (hs : Shows t (l.patched store)) (h : EntriesTidy Plain store.root)
    {path : List String} {v : Value} (hl : store.root.leaf? path = some v) {q : List String}
    {w : Value} : (∃ u, Spells (l.kept store) path v q u ∧ u.settled = w) ↔
      (t.leaf? q).map Value.settled = some w ∧ q.flatMap segments = path := by
  simp only [spells_iff h hl, hs.leaf q, Option.map_eq_some_iff]
  constructor
  · rintro ⟨u, ⟨hu, hq⟩, hw⟩
    exact ⟨⟨u, hu, hw⟩, hq⟩
  · rintro ⟨⟨u, hu, hw⟩, hq⟩
    exact ⟨u, ⟨hu, hq⟩, hw⟩

theorem Shows.spells_of_end (hs : Shows t (l.patched store)) (h : EntriesTidy Plain store.root)
    {a : List String × Option Value} (ha : a ∈ entryEnds [] t) (hv : a.2 ≠ none) {v : Value}
    (hl : store.root.leaf? (dotted a).1 = some v) :
    ∃ u, Spells (l.kept store) (dotted a).1 v a.1 u := by
  obtain ⟨q, o⟩ := a
  obtain ⟨u, rfl⟩ := Option.ne_none_iff_exists'.mp hv
  obtain ⟨_, rfl, hend⟩ := (mem_entryEnds hs.distinct).mp ha
  have hq : (t.leaf? q).map Value.settled = some u.settled := by
    rw [Table.leaf?_iff_end?.mpr hend]
    rfl
  obtain ⟨u', hspell, -⟩ := (hs.spelled h hl).mpr ⟨hq, rfl⟩
  exact ⟨u', hspell⟩

theorem Shows.nonempty_of_ofDotted (hs : Shows t (l.patched store))
    {again : Settings} (ho : Settings.ofDotted t = .ok again) : EntriesTidy (· ≠ "") t := by
  have hsome : (Settings.ofDotted t).toOption.isSome := by rw [ho]; rfl
  have hall := (Settings.ofDotted_isSome.mp hsome).1
  have hraw : ∀ e ∈ entryEnds [] t, ∀ s ∈ e.1, s ≠ "" := by
    intro e he s hse heq
    have hempty : "" ∈ segments s := by
      rw [heq]
      simp [segments, Text.cut]
    exact hall (dotted e) (List.mem_map_of_mem he) "" (List.mem_flatMap.mpr ⟨s, hse, hempty⟩) rfl
  exact tidy_of_ends hs.distinct hraw

theorem Shows.once_of_rebuilds (hs : Shows t (l.patched store)) (h : EntriesTidy Plain store.root)
    {again : Settings} (ho : Settings.ofDotted t = .ok again) (hsame : again.SameLeaves store)
    {path : List String} {v : Value} (hl : store.root.leaf? path = some v) :
    SpelledOnce (l.kept store) path v := by
  have hholds := Settings.holds_ofDotted ho
  have hsome : (Settings.ofDotted t).toOption.isSome := by rw [ho]; rfl
  have hpair := (Table.pairwise_dottedEnds hs.distinct).mp (Settings.ofDotted_isSome.mp hsome).2
  have hpath := (Settings.sameLeaves_iff hholds.tidy h).mp hsame path
  rw [hl] at hpath
  obtain ⟨u, hu, huv⟩ := Option.map_eq_some_iff.mp hpath
  obtain ⟨q, hq, hqp⟩ := (Table.mem_dottedEnds hs.distinct).mp ((hholds.leaf path u).mp hu)
  have hqu : (t.leaf? q).map Value.settled = some u.settled := by
    rw [hq]
    rfl
  obtain ⟨u', hspell, hu'⟩ := (hs.spelled h hl).mpr ⟨hqu, hqp⟩
  refine ⟨q, u', hspell, hu'.trans huv, fun q' w hspell' => ?_⟩
  obtain ⟨hq', hqp'⟩ := (hs.spelled h hl).mp ⟨w, hspell', rfl⟩
  obtain ⟨w', hw', -⟩ := Option.map_eq_some_iff.mp hq'
  have hmem : (q, some u) ∈ entryEnds [] t :=
    (mem_entryEnds hs.distinct).mpr ⟨q, rfl, Table.leaf?_iff_end?.mp hq⟩
  have hmem' : (q', some w') ∈ entryEnds [] t :=
    (mem_entryEnds hs.distinct).mpr ⟨q', rfl, Table.leaf?_iff_end?.mp hw'⟩
  have hprefix : (dotted (q', some w')).1 <+: (dotted (q, some u)).1 := by
    rw [dotted, dotted, hqp, hqp']
  exact not_not.mp fun hne => (hpair _ hmem' _ hmem hne).above (by simp [dotted]) hprefix

theorem Shows.pairwise_of_once (hs : Shows t (l.patched store)) (h : EntriesTidy Plain store.root)
    (ht : EntriesTidy (· ≠ "") t)
    (honce : ∀ path v, store.root.leaf? path = some v → SpelledOnce (l.kept store) path v) :
    t.dottedEnds.Pairwise Compatible := by
  have habove {a b : List String × Option Value} (ha : a ∈ entryEnds [] t)
      (hb : b ∈ entryEnds [] t) (hne : a.1 ≠ b.1) (hv : a.2 ≠ none) :
      ¬ (dotted a).1 <+: (dotted b).1 := by
    intro hpre
    obtain ⟨v, hfa, hva⟩ := hs.found h ht (List.mem_map_of_mem ha)
    obtain ⟨w, hfb, hwb⟩ := hs.found h ht (List.mem_map_of_mem hb)
    -- A leaf of the store leads nowhere else, so the other end spells the same leaf.
    have hla := Table.leaf?_eq_some.mpr ⟨hfa, hva.mp hv⟩
    have heq := Table.eq_of_prefix_of_leaf hla hfb hpre
    obtain rfl : v = w := Option.some.inj (hfa.symm.trans (heq ▸ hfb))
    obtain ⟨q, _, -, -, hunique⟩ := honce _ v hla
    obtain ⟨u, hspell⟩ := hs.spells_of_end h ha hv hla
    obtain ⟨u', hspell'⟩ := hs.spells_of_end h hb (hwb.mpr (hva.mp hv)) (heq ▸ hla)
    exact hne ((hunique _ u hspell).trans (hunique _ u' (heq ▸ hspell')).symm)
  rw [Table.pairwise_dottedEnds ht]
  intro a ha b hb hne
  exact ⟨habove ha hb hne, habove hb ha hne.symm⟩

theorem Shows.sameLeaves_of_once (hs : Shows t (l.patched store)) (h : EntriesTidy Plain store.root)
    (ht : EntriesTidy (· ≠ "") t)
    (honce : ∀ path v, store.root.leaf? path = some v → SpelledOnce (l.kept store) path v)
    {again : Settings} (ho : Settings.ofDotted t = .ok again) : again.SameLeaves store := by
  have hholds := Settings.holds_ofDotted ho
  rw [Settings.sameLeaves_iff hholds.tidy h]
  intro path
  cases hl : store.root.leaf? path with
  | some v =>
    obtain ⟨q, u, hspell, huv, -⟩ := honce path v hl
    obtain ⟨hq, hqp⟩ := (hs.spelled h hl).mp ⟨u, hspell, rfl⟩
    obtain ⟨w, hw, hwu⟩ := Option.map_eq_some_iff.mp hq
    have hm := (Table.mem_dottedEnds ht).mpr ⟨q, hw, hqp⟩
    rw [(hholds.leaf path w).mpr hm, Option.map_some, Option.map_some, hwu, huv]
  | none =>
    cases hagain : again.root.leaf? path with
    | none => rfl
    | some u =>
      obtain ⟨w, hw, hleaf⟩ := hs.found h ht ((hholds.leaf path u).mp hagain)
      rw [Table.leaf?_eq_some.mpr ⟨hw, hleaf.mp (by simp)⟩] at hl
      cases hl

/-- A table that shows the patched document makes the same store again exactly if no key is empty and
every leaf is spelled once. -/
theorem Shows.rebuilds_iff (hs : Shows t (l.patched store)) (h : EntriesTidy Plain store.root) :
    (∃ again, Settings.ofDotted t = .ok again ∧ again.SameLeaves store) ↔
      EntriesTidy (· ≠ "") t ∧
        ∀ path v, store.root.leaf? path = some v → SpelledOnce (l.kept store) path v := by
  constructor
  · rintro ⟨again, ho, hsame⟩
    exact ⟨hs.nonempty_of_ofDotted ho, fun path v hl => hs.once_of_rebuilds h ho hsame hl⟩
  · rintro ⟨ht, honce⟩
    have hplain : ∀ e ∈ t.dottedEnds, ∀ s ∈ e.1, s ≠ "" := by
      intro e he s hse
      obtain ⟨w, hw, -⟩ := hs.found h ht he
      exact ((Table.names_of_find? h hw).2 s hse).1
    have hsome := Settings.ofDotted_isSome.mpr ⟨hplain, hs.pairwise_of_once h ht honce⟩
    cases ho : Settings.ofDotted t with
    | error e =>
      rw [ho] at hsome
      cases hsome
    | ok again => exact ⟨again, rfl, hs.sameLeaves_of_once h ht honce ho⟩

end Shows

end Interview.Toml
