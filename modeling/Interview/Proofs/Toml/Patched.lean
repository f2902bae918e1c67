import Interview.Proofs.Toml.Pruning

/-! The document after a store was written over it: the leaves of the store stand in their places, as
far as there is room, beside what was kept at keys that say the same in another way. -/

namespace Interview.Toml

open Interview.Key (Plain segments)

def Layout.kept (l : Layout) (store : Settings) : Entries := prunedEntries store "" l.entries

variable {store : Settings} {l : Layout}

theorem patched_entries (l : Layout) (h : EntriesTidy Plain store.root) :
    (l.patched store).entries = putLeaves (entryPaths [] store.root) (l.kept store) := by
  simp only [Layout.patched, Settings.leaves_eq h, List.foldl_map]
  refine List.foldl_ext _ _ _ fun es e he => ?_
  have hf := Table.leaf?_eq_some.mp ((mem_entryPaths h).mp he)
  obtain ⟨hn, hp⟩ := Table.names_of_find? h hf.1
  rw [Interview.Key.segments_ofSegments hn hp]

theorem pairwise_entryPaths {t : Table} (h : EntriesTidy Plain t) :
    (entryPaths [] t).Pairwise fun a b => ¬ a.1 <+: b.1 ∧ ¬ b.1 <+: a.1 := by
  have hn := nodup_entryPaths h
  rw [List.Nodup, List.pairwise_map] at hn
  refine hn.imp_of_mem fun {a b} ha hb hne => ?_
  have hla := (mem_entryPaths h).mp ha
  have hlb := (mem_entryPaths h).mp hb
  refine ⟨fun hp => hne ?_, fun hp => hne ?_⟩
  · exact Table.eq_of_prefix_of_leaf hla (Table.leaf?_eq_some.mp hlb).1 hp
  · exact (Table.eq_of_prefix_of_leaf hlb (Table.leaf?_eq_some.mp hla).1 hp).symm

theorem incomparable_of_kept (h : EntriesTidy Plain store.root) {q : List String} {u : Value}
    (hk : leafAt? false q (l.kept store) = some u) (hq : store.root.leaf? q = none)
    {path : List String} {v : Value} (hl : store.root.leaf? path = some v) :
    ¬ q <+: path ∧ ¬ path <+: q := by
  obtain ⟨hn, hp⟩ := Table.names_of_find? h (Table.leaf?_eq_some.mp hl).1
  -- Its dotted key is that of a leaf of the store, and no such leaf lies below another.
  obtain ⟨w, hw, hleaf⟩ := isLeafEntry_eq_true.mp (leaf_of_leafAt_pruned hk)
  have hw : store.root.leaf? (segments (q.foldl Interview.Key.below "")) = some w :=
    Table.leaf?_eq_some.mpr ⟨hw, hleaf⟩
  constructor
  · intro hpre
    have hplain : ∀ s ∈ q, Plain s := fun s hs => hp s (hpre.subset hs)
    obtain ⟨s, rest, rfl⟩ := List.exists_cons_of_ne_nil (show q ≠ [] by
      rintro rfl
      cases hk)
    rw [Interview.Key.segments_foldl_below_empty (hplain s (by simp)).1,
      Interview.Key.flatMap_segments hplain, hq] at hw
    cases hw
  · rintro ⟨more, rfl⟩
    obtain ⟨s, rest, rfl⟩ := List.exists_cons_of_ne_nil hn
    rw [List.cons_append, Interview.Key.segments_foldl_below_empty (hp s (by simp)).1,
      ← List.cons_append, List.flatMap_append, Interview.Key.flatMap_segments hp] at hw
    have heq := Table.eq_of_prefix_of_leaf hl (Table.leaf?_eq_some.mp hw).1 (List.prefix_append _ _)
    have hmore : more = [] := by
      cases more with
      | nil => rfl
      | cons s' more => simp [Interview.Key.segments_ne_nil] at heq
    rw [hmore, List.append_nil, hl] at hq
    cases hq

/-- The patched document shows the leaves of the store that it has room for, and what was kept in other
places. -/
theorem leafAt?_patched (h : EntriesTidy Plain store.root) (q : List String) :
    leafAt? false q (l.patched store).entries =
      match store.root.leaf? q with
      | some v => if roomFor false q (l.kept store) then some v else none
      | none => leafAt? false q (l.kept store) := by
  rw [patched_entries l h]
  cases hl : store.root.leaf? q with
  | some v =>
    have hn := (Table.names_of_find? h (Table.leaf?_eq_some.mp hl).1).1
    exact leafAt?_putLeaves_of_mem (pairwise_entryPaths h) hn ((mem_entryPaths h).mpr hl) false _
  | none =>
    cases hk : leafAt? false q (l.kept store) with
    | none =>
      refine leafAt?_putLeaves_eq_none (fun hm => ?_) hk
      obtain ⟨⟨path, v⟩, he, rfl⟩ := List.mem_map.mp hm
      rw [(mem_entryPaths h).mp he] at hl
      cases hl
    | some u =>
      rw [leafAt?_putLeaves_of_incomparable (fun e he => ?_), hk]
      exact incomparable_of_kept h hk hl ((mem_entryPaths h).mp he)

theorem leaf_of_shown (h : EntriesTidy Plain store.root) {q : List String} (hq : ∀ s ∈ q, s ≠ "")
    {u : Value} (hs : leafAt? false q (l.patched store).entries = some u) :
    ∃ v, store.root.leaf? (q.flatMap segments) = some v := by
  rw [leafAt?_patched h] at hs
  cases hl : store.root.leaf? q with
  | some v =>
    have hp := (Table.names_of_find? h (Table.leaf?_eq_some.mp hl).1).2
    exact ⟨v, by rw [Interview.Key.flatMap_segments hp, hl]⟩
  | none =>
    rw [hl] at hs
    obtain ⟨v, hv, hleaf⟩ := isLeafEntry_eq_true.mp (leaf_of_leafAt_pruned hs)
    obtain ⟨s, rest, rfl⟩ := List.exists_cons_of_ne_nil (show q ≠ [] by
      rintro rfl
      cases hs)
    rw [← Interview.Key.segments_foldl_below_empty (hq s (by simp))]
    exact ⟨v, Table.leaf?_eq_some.mpr ⟨hv, hleaf⟩⟩

theorem table_of_shown (h : EntriesTidy Plain store.root) {q : List String} (hq : ∀ s ∈ q, s ≠ "")
    (hs : tableAt false q (l.patched store).entries = true) :
    ∃ entries, store.root.find? (q.flatMap segments) = some (.table entries) := by
  have hn : q ≠ [] := by
    rintro rfl
    cases hs
  rw [patched_entries l h] at hs
  rcases tableAt_putLeaves hs with hk | ⟨e, he, ⟨more, hpre⟩, hne⟩
  · obtain ⟨s, rest, rfl⟩ := List.exists_cons_of_ne_nil hn
    rw [← Interview.Key.segments_foldl_below_empty (hq s (by simp))]
    exact isTableEntry_eq_true.mp (table_of_tableAt_pruned hq hk)
  · have hf := (Table.leaf?_eq_some.mp ((mem_entryPaths h).mp he)).1
    have hp := (Table.names_of_find? h hf).2
    rw [← hpre] at hf hp
    have hplain : ∀ s ∈ q, Plain s := fun s hs => hp s (List.mem_append_left more hs)
    rw [Interview.Key.flatMap_segments hplain]
    refine Table.table_of_find?_append hf hn fun hm => hne ?_
    rw [← hpre, hm, List.append_nil]

end Interview.Toml
