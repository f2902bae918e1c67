import Interview.Proofs.Settings.Deleting
import Interview.Proofs.Settings.Merging

/-! Leaves taken out of a table. The others keep their values and their order, whatever their keys are
made of, and a store that grew by writes and deletions has one entry for each key in each of its tables. -/

namespace Interview

def Value.paths (path : List String) (v : Value) : List (List String × Value) :=
  (v.ends path).filterMap fun e => e.2.map (e.1, ·)

theorem Value.paths_table (path : List String) (entries : Table) :
    (Value.table entries).paths path = entryPaths path entries := by
  cases entries <;> rfl

theorem Value.paths_leaf {v : Value} (h : v.isTable = false) (path : List String) :
    v.paths path = [(path, v)] := by
  rw [Value.paths, Value.ends_of_end? (Value.end?_eq_some_some.mpr ⟨rfl, h⟩)]
  rfl

section Paths

variable {path q : List String} {entries : Table}

theorem entryPaths_cons (path : List String) (k : String) (v : Value) (rest : Table) :
    entryPaths path ((k, v) :: rest) = v.paths (path ++ [k]) ++ entryPaths path rest := by
  rw [entryPaths, entryEnds, List.filterMap_append, Value.paths, entryPaths]

theorem entryPaths_append (path : List String) (before after : Table) :
    entryPaths path (before ++ after) = entryPaths path before ++ entryPaths path after := by
  induction before with
  | nil => rfl
  | cons e before ih =>
    obtain ⟨k, v⟩ := e
    rw [List.cons_append, entryPaths_cons, entryPaths_cons, ih, List.append_assoc]

theorem prefix_of_mem_entryPaths {v : Value} (h : (q, v) ∈ entryPaths path entries) :
    ∃ k ∈ entries.map Prod.fst, path ++ [k] <+: q := by
  obtain ⟨⟨q', o⟩, hm, he⟩ := List.mem_filterMap.mp h
  obtain ⟨w, -, hw⟩ := Option.map_eq_some_iff.mp he
  rw [← (Prod.mk.inj hw).1]
  exact prefix_of_mem_entryEnds hm

theorem filter_entryPaths {s : String} (h : s ∉ entries.map Prod.fst) (rest : List String) :
    (entryPaths path entries).filter (fun e => e.1 ≠ path ++ s :: rest) = entryPaths path entries := by
  rw [List.filter_eq_self]
  rintro ⟨q, v⟩ hm
  obtain ⟨k, hk, hp⟩ := prefix_of_mem_entryPaths hm
  rw [decide_eq_true_eq]
  rintro rfl
  have hks : [k] <+: s :: rest := (List.prefix_append_right_inj path).mp hp
  obtain ⟨rfl, -⟩ := List.cons_prefix_cons.mp hks
  exact h hk

end Paths

namespace Table

variable {P : String → Prop} {t after : Table} {v : Value} {path : List String}

theorem exists_split {s : String} (h : EntriesTidy P t) (hg : t.get? s = some v) :
    ∃ before behind, t = before ++ (s, v) :: behind ∧ s ∉ before.map Prod.fst ∧
      s ∉ behind.map Prod.fst := by
  induction t with
  | nil => cases hg
  | cons e rest ih =>
    obtain ⟨k, w⟩ := e
    obtain ⟨-, hnew, -, hr⟩ := h
    by_cases hk : k = s
    · subst hk
      obtain rfl : w = v := by simpa [get?] using hg
      exact ⟨[], rest, rfl, by simp, hnew⟩
    · obtain ⟨before, behind, rfl, hb, ha⟩ := ih hr (by simpa [get?, hk] using hg)
      exact ⟨(k, w) :: before, behind, rfl, by simpa [Ne.symm hk] using hb, ha⟩

theorem erase_of_not_mem {s : String} (h : s ∉ t.map Prod.fst) : t.erase s = t := by
  rw [erase, List.filter_eq_self]
  intro e he
  have hne : e.1 ≠ s := fun heq => h (List.mem_map.mpr ⟨e, he, heq⟩)
  simpa using hne

theorem erase_split {s : String} {before behind : Table} (hb : s ∉ before.map Prod.fst)
    (ha : s ∉ behind.map Prod.fst) : (before ++ (s, v) :: behind).erase s = before ++ behind := by
  have hbefore := erase_of_not_mem hb
  have hbehind := erase_of_not_mem ha
  rw [erase] at hbefore hbehind ⊢
  rw [List.filter_append, List.filter_cons_of_neg (by simp), hbefore, hbehind]

theorem insert_split {s : String} {before behind : Table} (hb : s ∉ before.map Prod.fst) (w : Value) :
    (before ++ (s, v) :: behind).insert s w = before ++ (s, w) :: behind := by
  induction before with
  | nil => simp [insert]
  | cons e before ih =>
    obtain ⟨k, u⟩ := e
    obtain ⟨hk, hrest⟩ := not_or.mp (by simpa using hb : ¬ (s = k ∨ s ∈ before.map Prod.fst))
    simp [insert, Ne.symm hk, ih hrest]

/-- A leaf is taken out of the list of leaves, and nothing else is. -/
theorem entryPaths_take? (h : EntriesTidy P t) (hv : v.isTable = false)
    (ht : t.take? path = some (v, after)) (above : List String) :
    entryPaths above after = (entryPaths above t).filter fun e => e.1 ≠ above ++ path := by
  induction path generalizing t after above with
  | nil => cases ht
  | cons s path ih =>
    cases path with
    | nil =>
      obtain ⟨w, hg, he⟩ := Option.map_eq_some_iff.mp ht
      obtain ⟨rfl, rfl⟩ := Prod.mk.inj he
      obtain ⟨before, behind, rfl, hb, ha⟩ := exists_split h hg
      rw [erase_split hb ha, entryPaths_append, entryPaths_append, entryPaths_cons,
        Value.paths_leaf hv, List.filter_append, List.filter_append, filter_entryPaths hb,
        filter_entryPaths ha]
      simp
    | cons r path =>
      rw [take?_cons_cons] at ht
      obtain ⟨nested, hn, ht⟩ := Option.bind_eq_some_iff.mp ht
      obtain ⟨⟨w, inner⟩, hi, he⟩ := Option.map_eq_some_iff.mp ht
      obtain ⟨rfl, rfl⟩ := Prod.mk.inj he
      have hg := nested?_eq_some.mp hn
      obtain ⟨before, behind, rfl, hb, ha⟩ := exists_split h hg
      have hinner := ih (tidy_of_get? h hg).2 hi (above ++ [s])
      rw [List.append_assoc, List.singleton_append] at hinner
      rw [insert_split hb, entryPaths_append, entryPaths_append, entryPaths_cons, entryPaths_cons,
        Value.paths_table, Value.paths_table, List.filter_append, List.filter_append,
        filter_entryPaths hb, filter_entryPaths ha, hinner]

theorem keys_erase {s k : String} (h : k ∈ (t.erase s).map Prod.fst) : k ∈ t.map Prod.fst := by
  obtain ⟨e, he, rfl⟩ := List.mem_map.mp h
  exact List.mem_map.mpr ⟨e, (List.mem_filter.mp he).1, rfl⟩

theorem tidy_erase (h : EntriesTidy P t) (s : String) : EntriesTidy P (t.erase s) := by
  induction t with
  | nil => trivial
  | cons e rest ih =>
    obtain ⟨k, w⟩ := e
    obtain ⟨hk, hnew, hw, hr⟩ := h
    by_cases hks : k = s
    · simpa [erase, hks] using ih hr
    · have he : erase s ((k, w) :: rest) = (k, w) :: erase s rest := by simp [erase, hks]
      rw [he]
      exact ⟨hk, fun hm => hnew (keys_erase hm), hw, ih hr⟩

theorem tidy_take? (h : EntriesTidy P t) (ht : t.take? path = some (v, after)) :
    EntriesTidy P after := by
  induction path generalizing t after with
  | nil => cases ht
  | cons s path ih =>
    cases path with
    | nil =>
      obtain ⟨w, -, he⟩ := Option.map_eq_some_iff.mp ht
      obtain ⟨-, rfl⟩ := Prod.mk.inj he
      exact tidy_erase h s
    | cons r path =>
      rw [take?_cons_cons] at ht
      obtain ⟨nested, hn, ht⟩ := Option.bind_eq_some_iff.mp ht
      obtain ⟨⟨w, inner⟩, hi, he⟩ := Option.map_eq_some_iff.mp ht
      obtain ⟨rfl, rfl⟩ := Prod.mk.inj he
      obtain ⟨hs, hnested⟩ := tidy_of_get? h (nested?_eq_some.mp hn)
      exact tidy_insert h hs (ih hnested hi)

theorem keys_write_cons {s k : String} {w : Value} (hk : k ∈ (t.write w (s :: path)).2.map Prod.fst) :
    k = s ∨ k ∈ t.map Prod.fst := by
  cases path with
  | nil => exact (keys_insert s w t).mp hk
  | cons r path =>
    rw [write_cons_cons] at hk
    cases he : t.entered? s with
    | none =>
      rw [he] at hk
      exact .inr hk
    | some nested =>
      rw [he] at hk
      exact (keys_insert s _ t).mp hk

theorem keys_take? (ht : t.take? path = some (v, after)) {k : String} (hk : k ∈ after.map Prod.fst) :
    k ∈ t.map Prod.fst := by
  cases path with
  | nil => cases ht
  | cons s path =>
    cases path with
    | nil =>
      obtain ⟨w, -, he⟩ := Option.map_eq_some_iff.mp ht
      obtain ⟨-, rfl⟩ := Prod.mk.inj he
      exact keys_erase hk
    | cons r path =>
      rw [take?_cons_cons] at ht
      obtain ⟨nested, hn, ht⟩ := Option.bind_eq_some_iff.mp ht
      obtain ⟨⟨w, inner⟩, -, he⟩ := Option.map_eq_some_iff.mp ht
      obtain ⟨-, rfl⟩ := Prod.mk.inj he
      rcases (keys_insert s _ t).mp hk with rfl | hk
      · exact mem_keys_of_get? (nested?_eq_some.mp hn)
      · exact hk

end Table

section Mono

variable {P Q : String → Prop}

mutual

theorem Value.Tidy.mono {v : Value} (h : v.Tidy P) (hpq : ∀ k, P k → Q k) : v.Tidy Q := by
  match v, h with
  | .table _, h => exact EntriesTidy.mono h hpq
  | .str _, _ | .int _, _ | .float _, _ | .bool _, _ | .datetime _, _ | .array _, _ => trivial
termination_by sizeOf v

theorem EntriesTidy.mono {entries : List (String × Value)} (h : EntriesTidy P entries)
    (hpq : ∀ k, P k → Q k) : EntriesTidy Q entries := by
  match entries, h with
  | [], _ => trivial
  | (k, v) :: rest, ⟨hk, hnew, hv, hr⟩ =>
    exact ⟨hpq k hk, hnew, Value.Tidy.mono hv hpq, EntriesTidy.mono hr hpq⟩
termination_by sizeOf entries

end

end Mono

namespace Settings

open Key

/-- A store with keys of some kind, each once in its table; the outermost ones are as writes make them. -/
structure Keyed (P : String → Prop) (s : Settings) : Prop where
  tidy : EntriesTidy P s.root
  outer : ∀ k ∈ s.root.map Prod.fst, Plain k

theorem plain_of_write {s after : Settings} {key : String} {v : Value}
    (h : s.write key v = (.ok (), after)) :
    (∀ r ∈ segments key, Plain r) ∧ after.root = (s.root.write v (segments key)).2 := by
  unfold write at h
  by_cases he : (segments key).any String.isEmpty = true
  · simp [he] at h
  · have hplain : ∀ r ∈ segments key, Plain r := by
      intro r hr
      have hne : r.isEmpty = false := by
        have hall := List.any_eq_false.mp (Bool.eq_false_iff.mpr he) r hr
        simpa using hall
      exact ⟨by simpa using hne, noDot_of_mem_segments hr⟩
    cases hw : s.root.write v (segments key) with
    | mk outcome root =>
      cases outcome with
      | some blocked => simp [he, hw] at h
      | none =>
        obtain rfl : (⟨root⟩ : Settings) = after := by simpa [he, hw] using h
        exact ⟨hplain, rfl⟩

namespace Keyed

variable {P : String → Prop} {s after : Settings} {key : String} {v : Value}

theorem of_plain (h : EntriesTidy Plain s.root) (hp : ∀ k, Plain k → P k) : Keyed P s :=
  ⟨h.mono hp, h.keys⟩

theorem ofDotted {entries : Table} (h : Settings.ofDotted entries = .ok s)
    (hp : ∀ k, Plain k → P k) : Keyed P s :=
  of_plain (holds_ofDotted h).tidy hp

theorem write (h : Keyed P s) (hp : ∀ k, Plain k → P k) (hv : v.Tidy P)
    (hw : s.write key v = (.ok (), after)) : Keyed P after := by
  obtain ⟨hplain, hroot⟩ := plain_of_write hw
  refine ⟨?_, fun k hk => ?_⟩
  · rw [hroot]
    exact Table.tidy_write h.tidy (fun r hr => hp r (hplain r hr)) hv
  · rw [hroot] at hk
    cases hs : segments key with
    | nil => exact absurd hs (segments_ne_nil key)
    | cons r path =>
      rw [hs] at hk
      have hr : Plain r := hplain r (by simp [hs])
      rcases Table.keys_write_cons hk with rfl | hk
      · exact hr
      · exact h.outer k hk

theorem delete (h : Keyed P s) (hd : s.delete key = .ok (v, after)) : Keyed P after where
  tidy := Table.tidy_take? h.tidy (take?_of_delete hd)
  outer k hk := h.outer k (Table.keys_take? (take?_of_delete hd) hk)

theorem deletes {keys : List String} (h : Keyed P s) (hd : s.Deletes keys after) : Keyed P after := by
  induction hd with
  | nil => exact h
  | cons hd _ ih => exact ih (h.delete hd)

theorem leaves_eq (h : Keyed P s) :
    s.leaves = (entryPaths [] s.root).map fun e => (ofSegments e.1, e.2) :=
  entryLeaves_of_named (fun hne => absurd rfl hne) fun _ k hk => (h.outer k hk).1

end Keyed

end Settings
end Interview
