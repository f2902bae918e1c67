import Interview.Proofs.Settings.Taking
import Interview.Proofs.Walk.Effect

/-! Resets by a pattern. The keys to be deleted are those of a snapshot, each as its leaf spells it, and
such a key leads back to its leaf as long as no key on the way has a dot. -/

namespace Interview

theorem Text.length_cut (sep : Char) (cs : List Char) : (cut sep cs).length = cs.count sep + 1 := by
  induction cs with
  | nil => rfl
  | cons c cs ih =>
    by_cases hc : c = sep
    · simp [cut, hc, ih]
    · obtain ⟨piece, rest, hr⟩ := List.exists_cons_of_ne_nil (cut_ne_nil sep cs)
      rw [hr] at ih
      simp [cut, hc, hr, ← ih]

namespace Key

theorem length_segments (key : String) : (segments key).length = key.toList.count '.' + 1 := by
  rw [segments, List.length_map, Text.length_cut]

theorem length_le_flatMap (path : List String) : path.length ≤ (path.flatMap segments).length := by
  induction path with
  | nil => simp
  | cons s path ih =>
    rw [List.flatMap_cons, List.length_append, List.length_cons, length_segments]
    omega

theorem noDot_of_length_le {path : List String} (h : (path.flatMap segments).length ≤ path.length) :
    ∀ s ∈ path, '.' ∉ s.toList := by
  induction path with
  | nil => simp
  | cons s path ih =>
    rw [List.flatMap_cons, List.length_append, List.length_cons, length_segments] at h
    have hrest := length_le_flatMap path
    have hcount : s.toList.count '.' = 0 := by omega
    exact List.forall_mem_cons.mpr ⟨List.count_eq_zero.mp hcount, ih (by omega)⟩

end Key

namespace Settings

variable {P : String → Prop} {s after : Settings} {path : List String} {v : Value}

open Key

theorem leaf?_of_delete {key : String} {w : Value} (hd : s.delete key = .ok (w, after))
    (hl : s.root.leaf? path = some v) (hp : ¬ segments key <+: path) :
    after.root.leaf? path = some v := by
  have ht := take?_of_delete hd
  obtain ⟨hf, hv⟩ := Table.leaf?_eq_some.mp hl
  have habove : ¬ path <+: segments key := by
    rintro ⟨more, hm⟩
    have hmore : more ≠ [] := by
      rintro rfl
      exact hp (by rw [← hm, List.append_nil])
    have hne : path ≠ [] := by
      rintro rfl
      cases hf
    have hthere := Table.find?_of_take? ht
    rw [← hm] at hthere
    obtain ⟨entries, he⟩ := Table.table_of_find?_append hthere hne hmore
    rw [hf] at he
    cases he
    cases hv
  rw [Table.leaf?, Table.find?_take?_of_incomparable ht habove hp, ← Table.leaf?, hl]

theorem Deletes.leaf? {keys : List String} (h : s.Deletes keys after)
    (hl : s.root.leaf? path = some v) (hp : ∀ key ∈ keys, ¬ segments key <+: path) :
    after.root.leaf? path = some v := by
  induction h with
  | nil => exact hl
  | cons hd _ ih =>
    obtain ⟨hkey, hrest⟩ := List.forall_mem_cons.mp hp
    exact ih (leaf?_of_delete hd hl hkey) hrest

/-- The key of a leaf without dots on its path leads to the leaf, and its deletion takes that leaf out of
the list. -/
theorem Keyed.delete_leaf (h : Keyed P s) (hm : (path, v) ∈ entryPaths [] s.root)
    (hdots : ∀ r ∈ path, '.' ∉ r.toList) :
    ∃ after, s.delete (ofSegments path) = .ok (v, after) ∧
      entryPaths [] after.root = (entryPaths [] s.root).filter fun e => e.1 ≠ path := by
  obtain ⟨hf, hv⟩ := Table.leaf?_eq_some.mp ((mem_entryPaths h.tidy).mp hm)
  have hne : path ≠ [] := by
    rintro rfl
    cases hf
  have hs : segments (ofSegments path) = path := by
    rw [segments_join hne, flatMap_segments_of_noDot hdots]
  have hg : s.get? (ofSegments path) = some v := by rw [get?, hs, hf]
  obtain ⟨after, hd⟩ := delete_of_get? hg
  have ht := take?_of_delete hd
  rw [hs] at ht
  exact ⟨after, hd, Table.entryPaths_take? h.tidy hv ht []⟩

end Settings

namespace Walk

open Key Settings

variable {P : String → Prop} {pattern : Pattern} {s after : Settings}

def targeted (pattern : Pattern) (e : List String × Value) : Bool :=
  pattern.matchesAtStart (ofSegments e.1)

theorem filter_ne_of_nodup {kept todo : List (List String × Value)} {e : List String × Value}
    (h : ((kept ++ e :: todo).map Prod.fst).Nodup) :
    (kept ++ e :: todo).filter (fun d => d.1 ≠ e.1) = kept ++ todo := by
  rw [List.map_append, List.map_cons, List.nodup_middle, List.nodup_cons] at h
  have hne : ∀ d ∈ kept ++ todo, d.1 ≠ e.1 := by
    intro d hd heq
    exact h.1 (by rw [← List.map_append, ← heq]; exact List.mem_map_of_mem hd)
  have hall := List.filter_eq_self.mpr fun d hd => decide_eq_true (hne d hd)
  rw [List.filter_append] at hall ⊢
  rw [List.filter_cons_of_neg (by simp)]
  exact hall

theorem clearedMatching_of_noDot {kept todo : List (List String × Value)} (h : Keyed P s)
    (hpaths : entryPaths [] s.root = kept ++ todo)
    (hdots : ∀ e ∈ todo, targeted pattern e = true → ∀ r ∈ e.1, '.' ∉ r.toList) :
    ∃ after, clearedMatching pattern (todo.map fun e => ofSegments e.1) s =
        (.ok ((todo.map fun e => ofSegments e.1).filter pattern.matchesAtStart), after) ∧
      entryPaths [] after.root = kept ++ todo.filter fun e => !targeted pattern e := by
  -- The leaves that were passed over are kept, and those of the rest of the snapshot are still there.
  induction todo generalizing kept s with
  | nil => exact ⟨s, rfl, by simpa using hpaths⟩
  | cons e todo ih =>
    obtain ⟨hfirst, hrest⟩ := List.forall_mem_cons.mp hdots
    by_cases hm : targeted pattern e = true
    · have hmem : (e.1, e.2) ∈ entryPaths [] s.root := by simp [hpaths]
      obtain ⟨next, hd, hnext⟩ := h.delete_leaf hmem (hfirst hm)
      have hn := nodup_entryPaths h.tidy
      rw [hpaths] at hn
      rw [hpaths, filter_ne_of_nodup hn] at hnext
      obtain ⟨after, hc, hafter⟩ := ih (h.delete hd) hnext hrest
      refine ⟨after, ?_, by rw [hafter, List.filter_cons_of_neg (by simp [hm])]⟩
      have hkey : pattern.matchesAtStart (ofSegments e.1) = true := hm
      simp [clearedMatching, hkey, hd, hc, Except.map]
    · have hnext : entryPaths [] s.root = (kept ++ [e]) ++ todo := by rw [hpaths, List.append_cons]
      obtain ⟨after, hc, hafter⟩ := ih h hnext hrest
      refine ⟨after, ?_, by rw [hafter, List.filter_cons_of_pos (by simpa using hm), List.append_assoc,
        List.singleton_append]⟩
      have hkey : pattern.matchesAtStart (ofSegments e.1) = false := by simpa [targeted] using hm
      simp [clearedMatching, hkey, hc]

theorem noDot_of_gone {keys : List String} (h : Keyed P s) (hdel : s.Deletes keys after)
    (hkeys : ∀ key ∈ keys, ∃ e ∈ entryPaths [] s.root, targeted pattern e = true ∧ ofSegments e.1 = key)
    (hgone : ∀ e ∈ entryPaths [] s.root, targeted pattern e = true → e ∉ entryPaths [] after.root)
    {e : List String × Value} (he : e ∈ entryPaths [] s.root) (hm : targeted pattern e = true) :
    ∀ r ∈ e.1, '.' ∉ r.toList := by
  have hl : s.root.leaf? e.1 = some e.2 := (mem_entryPaths h.tidy).mp he
  have htaken : ∃ key ∈ keys, segments key <+: e.1 := by
    by_contra hnone
    have hstays := hdel.leaf? hl fun key hk hp => hnone ⟨key, hk, hp⟩
    exact hgone e he hm ((mem_entryPaths (h.deletes hdel).tidy).mpr hstays)
  -- It was taken by the key of a leaf which itself falls into fewer segments, and so has no dots.
  obtain ⟨key, hk, hp⟩ := htaken
  obtain ⟨d, hd, hdm, rfl⟩ := hkeys key hk
  have hdl := (mem_entryPaths h.tidy).mp hd
  have hne : d.1 ≠ [] := by
    intro hnil
    rw [hnil] at hdl
    cases hdl
  rw [segments_join hne] at hp
  have hlen : (d.1.flatMap segments).length ≤ e.1.length := hp.length_le
  by_cases hshort : (e.1.flatMap segments).length ≤ e.1.length
  · exact noDot_of_length_le hshort
  · have hlt : (d.1.flatMap segments).length < (e.1.flatMap segments).length := by omega
    have hdots := noDot_of_gone h hdel hkeys hgone hd hdm
    rw [flatMap_segments_of_noDot hdots] at hp
    have heq := Table.eq_of_prefix_of_leaf hdl (Table.leaf?_eq_some.mp hl).1 hp
    rwa [heq] at hdots
termination_by (e.1.flatMap segments).length
decreasing_by exact hlt

/-- A deletion as a pattern asks for: the leaves with matching keys go, and the others keep their values
and their order. -/
structure Exact (pattern : Pattern) (s : Settings) (deleted : Except Error (List String))
    (after : Settings) : Prop where
  deleted : deleted = .ok (s.keys.filter pattern.matchesAtStart)
  leaves : after.leaves = s.leaves.filter fun e => !pattern.matchesAtStart e.1

/-- No leaf with a matching key stands below a dotted key, nor has one itself. -/
def Undotted (pattern : Pattern) (s : Settings) : Prop :=
  ∀ e ∈ entryPaths [] s.root, targeted pattern e = true → ∀ r ∈ e.1, '.' ∉ r.toList

theorem exact_of_undotted (h : Keyed P s) (hu : Undotted pattern s) :
    Exact pattern s (clearedMatching pattern s.keys s).1 (clearedMatching pattern s.keys s).2 := by
  have hkeys : s.keys = (entryPaths [] s.root).map fun e => ofSegments e.1 := by
    rw [keys, h.leaves_eq, List.map_map]
    rfl
  have hpaths : entryPaths [] s.root = [] ++ entryPaths [] s.root := rfl
  obtain ⟨after, hc, hafter⟩ := clearedMatching_of_noDot h hpaths hu
  have hkeyed : Keyed P after := h.deletes (deletes_of_clearedMatching hc)
  rw [hkeys, hc]
  refine ⟨by rw [hkeys], ?_⟩
  rw [hkeyed.leaves_eq, hafter, h.leaves_eq, List.filter_map]
  rfl

/-- Exactly the leaves with matching keys are deleted, unless one of them stands below a dotted key. -/
theorem exact_iff (h : Keyed P s) :
    Exact pattern s (clearedMatching pattern s.keys s).1 (clearedMatching pattern s.keys s).2 ↔
      Undotted pattern s := by
  refine ⟨fun hx e he hm => ?_, exact_of_undotted h⟩
  have hdel := deletes_of_clearedMatching (Prod.ext hx.deleted rfl :
    clearedMatching pattern s.keys s = (.ok _, (clearedMatching pattern s.keys s).2))
  refine noDot_of_gone h hdel (fun key hk => ?_) (fun e he hm hstays => ?_) he hm
  · obtain ⟨hkey, hmatch⟩ := List.mem_filter.mp hk
    rw [keys, h.leaves_eq, List.map_map] at hkey
    obtain ⟨d, hd, rfl⟩ := List.mem_map.mp hkey
    exact ⟨d, hd, hmatch, rfl⟩
  · have hleaf : (ofSegments e.1, e.2) ∈ (clearedMatching pattern s.keys s).2.leaves := by
      rw [(h.deletes hdel).leaves_eq]
      exact List.mem_map_of_mem hstays
    rw [hx.leaves] at hleaf
    have hnot := (List.mem_filter.mp hleaf).2
    rw [targeted] at hm
    simp [hm] at hnot

end Walk
end Interview
