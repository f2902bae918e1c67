import Interview.Proofs.Settings.Keeping
import Interview.Proofs.Settings.Merging

/-! Stores built from the same entries in different orders. Whether there is such a store is a matter of
the entries alone, and two of them differ only in the order in which their tables hold their keys. -/

namespace Interview

/-- Equal but for the order of keys, here and in the tables below. -/
inductive Value.Alike : Value → Value → Prop
  | same (v : Value) : Alike v v
  | tables {es fs : Table} (keys : (es.map Prod.fst).Perm (fs.map Prod.fst))
      (values : ∀ k v w, es.get? k = some v → fs.get? k = some w → Alike v w) :
      Alike (.table es) (.table fs)

namespace Table

theorem mem_keys_iff {key : String} {t : Table} :
    key ∈ t.map Prod.fst ↔ ∃ v, t.get? key = some v := by
  refine ⟨fun h => ?_, fun ⟨v, hv⟩ => mem_keys_of_get? hv⟩
  induction t with
  | nil => cases h
  | cons e rest ih =>
    obtain ⟨k, w⟩ := e
    by_cases hk : k = key
    · exact ⟨w, by simp [get?, hk]⟩
    · have hrest : key ∈ rest.map Prod.fst := by
        rcases List.mem_cons.mp h with he | h
        · exact absurd he.symm hk
        · exact h
      simpa [get?, hk] using ih hrest

theorem nodup_keys {P : String → Prop} {t : Table} (h : EntriesTidy P t) : (t.map Prod.fst).Nodup := by
  induction t with
  | nil => simp
  | cons e rest ih =>
    obtain ⟨-, hnew, -, hr⟩ := h
    exact List.nodup_cons.mpr ⟨hnew, ih hr⟩

theorem find?_below {t inner : Table} {key : String} (h : t.get? key = some (.table inner)) (r : String)
    (path : List String) : t.find? (key :: r :: path) = inner.find? (r :: path) := by
  rw [find?_cons_cons, nested?_eq_some.mpr h, Option.bind_some]

theorem sizeOf_lt_of_get? {t inner : Table} {key : String} (h : t.get? key = some (.table inner)) :
    sizeOf inner < sizeOf t := by
  induction t with
  | nil => cases h
  | cons e rest ih =>
    obtain ⟨k, w⟩ := e
    by_cases hk : k = key
    · obtain rfl : w = .table inner := by simpa [get?, hk] using h
      simp
      omega
    · have hrest := ih (by simpa [get?, hk] using h)
      simp
      omega

structure SamePaths (t u : Table) : Prop where
  leaf : ∀ path, t.leaf? path = u.leaf? path
  table : ∀ path, (∃ es, t.find? path = some (.table es)) ↔ ∃ es, u.find? path = some (.table es)

namespace SamePaths

variable {t u : Table}

theorem symm (h : SamePaths t u) : SamePaths u t :=
  ⟨fun path => (h.leaf path).symm, fun path => (h.table path).symm⟩

theorem get? (h : SamePaths t u) {key : String} {v : Value} (hg : t.get? key = some v) :
    u.get? key = some v ∨ ∃ es fs, v = .table es ∧ u.get? key = some (.table fs) := by
  have hf : t.find? [key] = some v := hg
  cases hv : v.isTable with
  | false =>
    have hleaf : u.leaf? [key] = some v := by
      rw [← h.leaf]
      exact leaf?_eq_some.mpr ⟨hf, hv⟩
    exact .inl (leaf?_eq_some.mp hleaf).1
  | true =>
    obtain ⟨es, rfl⟩ := Value.eq_table hv
    obtain ⟨fs, hu⟩ := (h.table [key]).mp ⟨es, hf⟩
    exact .inr ⟨es, fs, rfl, hu⟩

theorem below (h : SamePaths t u) {key : String} {es fs : Table} (ht : t.get? key = some (.table es))
    (hu : u.get? key = some (.table fs)) : SamePaths es fs := by
  refine ⟨fun path => ?_, fun path => ?_⟩
  · cases path with
    | nil => rfl
    | cons r path =>
      have hleaf := h.leaf (key :: r :: path)
      rwa [leaf?, leaf?, find?_below ht, find?_below hu, ← leaf?, ← leaf?] at hleaf
  · cases path with
    | nil => simp [find?]
    | cons r path =>
      have htable := h.table (key :: r :: path)
      rwa [find?_below ht, find?_below hu] at htable

theorem keys_subset (h : SamePaths t u) {key : String} (hk : key ∈ t.map Prod.fst) :
    key ∈ u.map Prod.fst := by
  obtain ⟨v, hv⟩ := mem_keys_iff.mp hk
  rcases h.get? hv with hu | ⟨es, fs, -, hu⟩
  · exact mem_keys_of_get? hu
  · exact mem_keys_of_get? hu

theorem alike {P : String → Prop} {t u : Table} (h : SamePaths t u) (ht : EntriesTidy P t)
    (hu : EntriesTidy P u) : Value.Alike (.table t) (.table u) := by
  refine .tables ?_ fun key v w hv hw => ?_
  · refine (List.perm_ext_iff_of_nodup (nodup_keys ht) (nodup_keys hu)).mpr fun key => ?_
    exact ⟨h.keys_subset, h.symm.keys_subset⟩
  · rcases h.get? hv with hsame | ⟨es, fs, rfl, hfs⟩
    · obtain rfl := Option.some.inj (hsame.symm.trans hw)
      exact .same v
    · obtain rfl := Option.some.inj (hfs.symm.trans hw)
      have hsize := sizeOf_lt_of_get? hv
      exact (h.below hv hw).alike (tidy_of_get? ht hv).2 (tidy_of_get? hu hw).2
termination_by sizeOf t

end SamePaths

end Table

/-- Entries that can stand in one store: no segment is empty, no two leaves have one path, and no leaf
stands at or above the place of another entry. -/
structure Consistent (entries : List (List String × Option Value)) : Prop where
  filled : ∀ e ∈ entries, ∀ s ∈ e.1, s ≠ ""
  once : ((entries.filter (·.2.isSome)).map Prod.fst).Nodup
  apart : ∀ (i j : Nat) (hi : i < entries.length) (hj : j < entries.length), i ≠ j →
    entries[i].2 ≠ none → ¬ entries[i].1 <+: entries[j].1

theorem consistent_iff {entries : List (List String × Option Value)} :
    Consistent entries ↔ (∀ e ∈ entries, ∀ s ∈ e.1, s ≠ "") ∧ entries.Pairwise Compatible := by
  constructor
  · rintro ⟨hfilled, -, hapart⟩
    refine ⟨hfilled, List.pairwise_iff_getElem.mpr fun i j hi hj hij => ?_⟩
    exact ⟨hapart i j hi hj (by omega), hapart j i hj hi (by omega)⟩
  · rintro ⟨hfilled, hpair⟩
    refine ⟨hfilled, ?_, fun i j hi hj hij hleaf => ?_⟩
    · -- Two leaves with one path would stand at each other's place.
      rw [List.Nodup, List.pairwise_map]
      refine (hpair.filter _).imp_of_mem fun {d e} hd he hde heq => ?_
      have hleaf : d.2 ≠ none := Option.isSome_iff_ne_none.mp (List.mem_filter.mp hd).2
      exact hde.above hleaf (by rw [heq])
    · have hget := List.pairwise_iff_getElem.mp hpair
      rcases Nat.lt_or_gt_of_ne hij with hlt | hgt
      · exact (hget i j hi hj hlt).above hleaf
      · exact (hget j i hj hi hgt).below hleaf

theorem Holds.samePaths {t u : Table} {ends ends' : List (List String × Option Value)}
    (h : Holds t ends) (h' : Holds u ends') (hp : ends.Perm ends') : t.SamePaths u := by
  refine ⟨fun path => Option.ext fun v => ?_, fun path => ?_⟩
  · rw [h.leaf, h'.leaf, hp.mem_iff]
  · rw [h.table, h'.table]
    simp only [hp.mem_iff]

def leafEntries (entries : List (List String × Option Value)) : List (String × Value) :=
  entries.filterMap fun e => e.2.map (Key.ofSegments e.1, ·)

namespace Settings

def Alike (s t : Settings) : Prop := Value.Alike (.table s.root) (.table t.root)

theorem ofDotted_ok_iff {t : Table} : (∃ s, ofDotted t = .ok s) ↔ Consistent t.dottedEnds := by
  rw [consistent_iff, ← ofDotted_isSome]
  cases ofDotted t with
  | ok s => simp [Except.toOption]
  | error e => simp [Except.toOption]

theorem leaves_perm {s : Settings} {entries : List (List String × Option Value)}
    (h : Holds s.root entries) (hc : Consistent entries) : s.leaves.Perm (leafEntries entries) := by
  have hjoin : leafEntries entries =
      (entries.filterMap fun e => e.2.map (e.1, ·)).map fun e => (Key.ofSegments e.1, e.2) := by
    rw [List.map_filterMap, leafEntries]
    simp only [Option.map_map]
    rfl
  have hnodup : (entries.filterMap fun e => e.2.map (e.1, ·)).Nodup := by
    rw [List.Nodup, List.pairwise_filterMap]
    refine (consistent_iff.mp hc).2.imp fun {d e} hde x hx y hy heq => ?_
    obtain ⟨v, hv, rfl⟩ := Option.map_eq_some_iff.mp hx
    obtain ⟨w, hw, rfl⟩ := Option.map_eq_some_iff.mp hy
    exact hde.above (by simp [hv]) (by rw [(Prod.mk.inj heq).1])
  rw [leaves_eq h.tidy, hjoin]
  refine List.Perm.map _ ((List.perm_ext_iff_of_nodup ?_ hnodup).mpr fun ⟨path, v⟩ => ?_)
  · exact .of_map Prod.fst (nodup_entryPaths h.tidy)
  · rw [mem_entryPaths h.tidy, h.leaf, List.mem_filterMap]
    constructor
    · intro he
      exact ⟨_, he, rfl⟩
    · rintro ⟨⟨q, o⟩, he, heq⟩
      obtain ⟨w, rfl, hw⟩ := Option.map_eq_some_iff.mp heq
      obtain ⟨rfl, rfl⟩ := Prod.mk.inj hw
      exact he

theorem hasTable_of_empty {t : Table} {s : Settings} (h : Holds s.root t.dottedEnds)
    {path : List String} (he : (path, none) ∈ t.dottedEnds) : s.HasTable (Key.ofSegments path) := by
  have hn : path ≠ [] := (isEnd_of_mem_dottedEnds he).ne_nil
  obtain ⟨entries, hf⟩ := (h.table path).mpr ⟨hn, _, he, List.prefix_refl path, fun _ => rfl⟩
  have hplain := (Table.names_of_find? h.tidy hf).2
  exact ⟨entries, (get?_ofSegments hn hplain).trans hf⟩

def Agree : Except Error Settings → Except Error Settings → Prop
  | .ok s, .ok s' => s.Alike s'
  | .error _, .error _ => True
  | _, _ => False

theorem agree_of_perm {t u : Table} (h : u.dottedEnds.Perm t.dottedEnds) :
    Agree (ofDotted t) (ofDotted u) := by
  have hsame : (∃ s, ofDotted t = .ok s) ↔ ∃ s, ofDotted u = .ok s := by
    have hpair : u.dottedEnds.Pairwise Compatible ↔ t.dottedEnds.Pairwise Compatible :=
      h.pairwise_iff fun hde => hde.symm
    rw [ofDotted_ok_iff, ofDotted_ok_iff, consistent_iff, consistent_iff, hpair]
    simp only [h.mem_iff]
  cases ht : ofDotted t with
  | error e =>
    cases hu : ofDotted u with
    | error e' => trivial
    | ok s' => simp [ht, hu] at hsame
  | ok s =>
    cases hu : ofDotted u with
    | error e' => simp [ht, hu] at hsame
    | ok s' =>
      have hs := holds_ofDotted ht
      have hs' := holds_ofDotted hu
      exact (hs.samePaths hs' h.symm).alike hs.tidy hs'.tidy

/-- A store is built from a table with dotted keys exactly if its entries are consistent. Then it has the
leaves among them and no others, and a table for every empty one; and entries in another order, however
they are nested, lead to the same but for the order of keys. -/
theorem ofDotted_consistent (t : Table) :
    ((∃ s, ofDotted t = .ok s) ↔ Consistent t.dottedEnds) ∧
      (∀ s, ofDotted t = .ok s → s.leaves.Perm (leafEntries t.dottedEnds) ∧
        ∀ path, (path, none) ∈ t.dottedEnds → s.HasTable (Key.ofSegments path)) ∧
      ∀ u : Table, u.dottedEnds.Perm t.dottedEnds → Agree (ofDotted t) (ofDotted u) := by
  refine ⟨ofDotted_ok_iff, fun s hs => ?_, fun u hu => agree_of_perm hu⟩
  have hholds := holds_ofDotted hs
  exact ⟨leaves_perm hholds (ofDotted_ok_iff.mp ⟨s, hs⟩), fun path he => hasTable_of_empty hholds he⟩

theorem ofDotted_consistent_nested_first :
    let nested : Table := [("a", .table [("c", .int 2)]), ("a.b", .int 1)]
    let dotted : Table := [("a.b", .int 1), ("a.c", .int 2)]
    nested.dottedEnds.Perm dotted.dottedEnds ∧
      ofDotted dotted = .ok ⟨[("a", .table [("b", .int 1), ("c", .int 2)])]⟩ ∧
      Agree (ofDotted dotted) (ofDotted nested) := by
  intro nested dotted
  have hperm : nested.dottedEnds.Perm dotted.dottedEnds := by
    have hn : nested.dottedEnds = [(["a", "c"], some (.int 2)), (["a", "b"], some (.int 1))] := rfl
    have hd : dotted.dottedEnds = [(["a", "b"], some (.int 1)), (["a", "c"], some (.int 2))] := rfl
    rw [hn, hd]
    exact .swap _ _ _
  exact ⟨hperm, rfl, (ofDotted_consistent dotted).2.2 nested hperm⟩

end Settings
end Interview
