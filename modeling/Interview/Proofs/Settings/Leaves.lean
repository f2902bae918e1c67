import Interview.Proofs.Settings.Paths
import Mathlib.Data.List.Nodup

/-! Stores with the same leaves. Without empty or dotted keys they are those in which every path leads
to the same leaf; a not-a-number counts as equal to every other. -/

namespace Interview

open Number Key

mutual

/-- The value with one not-a-number in place of all. -/
def Value.settled : Value → Value
  | .float x => .float (if x.isNaN then .nan else x)
  | .array items => .array (settledItems items)
  | .table entries => .table (settledEntries entries)
  | v => v

def settledItems : List Value → List Value
  | [] => []
  | v :: rest => v.settled :: settledItems rest

def settledEntries : List (String × Value) → List (String × Value)
  | [] => []
  | (k, v) :: rest => (k, v.settled) :: settledEntries rest

end

namespace Table

theorem tidy_of_get? {P : String → Prop} {t : Table} (h : EntriesTidy P t) {key : String}
    {v : Value} (hg : t.get? key = some v) : P key ∧ v.Tidy P := by
  induction t with
  | nil => cases hg
  | cons e rest ih =>
    obtain ⟨k, w⟩ := e
    obtain ⟨hk, -, hw, hr⟩ := h
    by_cases hkey : k = key
    · obtain rfl : w = v := by simpa [get?, hkey] using hg
      exact ⟨hkey ▸ hk, hw⟩
    · exact ih hr (by simpa [get?, hkey] using hg)

theorem names_of_find? {P : String → Prop} {t : Table} (h : EntriesTidy P t) {path : List String}
    {v : Value} (hf : t.find? path = some v) : path ≠ [] ∧ ∀ s ∈ path, P s := by
  induction path generalizing t with
  | nil => cases hf
  | cons s path ih =>
    refine ⟨List.cons_ne_nil s path, ?_⟩
    cases path with
    | nil => simpa using (tidy_of_get? h hf).1
    | cons r path =>
      rw [find?_cons_cons] at hf
      obtain ⟨nested, hn, hf⟩ := Option.bind_eq_some_iff.mp hf
      obtain ⟨hs, hnested⟩ := tidy_of_get? h (nested?_eq_some.mp hn)
      exact List.forall_mem_cons.mpr ⟨hs, (ih hnested hf).2⟩

end Table

namespace Settings

def SameLeaves (s t : Settings) : Prop :=
  (s.leaves.map fun e => (e.1, e.2.settled)).Perm (t.leaves.map fun e => (e.1, e.2.settled))

theorem leaves_eq {s : Settings} (h : EntriesTidy Plain s.root) :
    s.leaves = (entryPaths [] s.root).map fun e => (ofSegments e.1, e.2) := by
  have hnil : ∀ s ∈ ([] : List String), Plain s := by simp
  exact entryLeaves_eq h hnil

theorem eq_of_ofSegments_eq {path other : List String} (hn : path ≠ []) (hp : ∀ s ∈ path, Plain s)
    (hn' : other ≠ []) (ho : ∀ s ∈ other, Plain s) (h : ofSegments path = ofSegments other) :
    path = other := by
  rw [← segments_ofSegments hn hp, h, segments_ofSegments hn' ho]

theorem mem_settled_leaves {s : Settings} (h : EntriesTidy Plain s.root) {path : List String}
    (hn : path ≠ []) (hp : ∀ s ∈ path, Plain s) {w : Value} :
    (ofSegments path, w) ∈ s.leaves.map (fun e => (e.1, e.2.settled)) ↔
      (s.root.leaf? path).map Value.settled = some w := by
  rw [leaves_eq h, List.map_map, List.mem_map, Option.map_eq_some_iff]
  constructor
  · rintro ⟨⟨q, v⟩, hm, he⟩
    obtain ⟨hq, rfl⟩ := Prod.mk.inj he
    have hf := (mem_entryPaths h).mp hm
    obtain ⟨hqn, hqp⟩ := Table.names_of_find? h (Table.leaf?_eq_some.mp hf).1
    obtain rfl := eq_of_ofSegments_eq hqn hqp hn hp hq
    exact ⟨v, hf, rfl⟩
  · rintro ⟨v, hf, rfl⟩
    exact ⟨(path, v), (mem_entryPaths h).mpr hf, rfl⟩

theorem path_of_mem_leaves {s : Settings} (h : EntriesTidy Plain s.root) {e : String × Value}
    (he : e ∈ s.leaves) : ∃ path, path ≠ [] ∧ (∀ s ∈ path, Plain s) ∧ ofSegments path = e.1 ∧
      s.root.leaf? path = some e.2 := by
  rw [leaves_eq h, List.mem_map] at he
  obtain ⟨⟨path, v⟩, hm, rfl⟩ := he
  have hf := (mem_entryPaths h).mp hm
  obtain ⟨hn, hp⟩ := Table.names_of_find? h (Table.leaf?_eq_some.mp hf).1
  exact ⟨path, hn, hp, rfl, hf⟩

theorem nodup_leaf_keys {s : Settings} (h : EntriesTidy Plain s.root) :
    (s.leaves.map Prod.fst).Nodup := by
  have hn := nodup_entryPaths h
  rw [leaves_eq h, List.map_map]
  rw [List.Nodup, List.pairwise_map] at hn ⊢
  refine hn.imp_of_mem fun {a b} ha hb hne heq => hne ?_
  obtain ⟨han, hap⟩ := Table.names_of_find? h
    (Table.leaf?_eq_some.mp ((mem_entryPaths h).mp ha)).1
  obtain ⟨hbn, hbp⟩ := Table.names_of_find? h
    (Table.leaf?_eq_some.mp ((mem_entryPaths h).mp hb)).1
  exact eq_of_ofSegments_eq han hap hbn hbp heq

theorem nodup_settled_leaves {s : Settings} (h : EntriesTidy Plain s.root) :
    (s.leaves.map fun e => (e.1, e.2.settled)).Nodup := by
  have hn := nodup_leaf_keys h
  refine List.Nodup.of_map Prod.fst ?_
  rwa [List.map_map]

theorem sameLeaves_iff {s t : Settings} (hs : EntriesTidy Plain s.root)
    (ht : EntriesTidy Plain t.root) :
    SameLeaves s t ↔ ∀ path,
      (s.root.leaf? path).map Value.settled = (t.root.leaf? path).map Value.settled := by
  rw [SameLeaves, List.perm_ext_iff_of_nodup (nodup_settled_leaves hs) (nodup_settled_leaves ht)]
  constructor
  · intro hall path
    by_cases hp : path ≠ [] ∧ ∀ s ∈ path, Plain s
    · obtain ⟨hn, hp⟩ := hp
      refine Option.ext fun w => ?_
      rw [← mem_settled_leaves hs hn hp, ← mem_settled_leaves ht hn hp]
      exact hall _
    · have hnone {u : Settings} (hu : EntriesTidy Plain u.root) : u.root.leaf? path = none := by
        cases hl : u.root.leaf? path with
        | none => rfl
        | some v => exact absurd (Table.names_of_find? hu (Table.leaf?_eq_some.mp hl).1) hp
      rw [hnone hs, hnone ht]
  · intro hall e
    constructor
    · intro he
      obtain ⟨⟨key, v⟩, hm, rfl⟩ := List.mem_map.mp he
      obtain ⟨path, hn, hp, rfl, hl⟩ := path_of_mem_leaves hs hm
      exact (mem_settled_leaves ht hn hp).mpr (by rw [← hall path, hl]; rfl)
    · intro he
      obtain ⟨⟨key, v⟩, hm, rfl⟩ := List.mem_map.mp he
      obtain ⟨path, hn, hp, rfl, hl⟩ := path_of_mem_leaves ht hm
      exact (mem_settled_leaves hs hn hp).mpr (by rw [hall path, hl]; rfl)

end Settings
end Interview
