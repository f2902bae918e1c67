import Interview.Comparison
import Interview.Proofs.Settings.Flattening

/-! Two stores compared leaf by leaf. Without empty or dotted keys the comparison has one entry for every
key that is a leaf on either side, in ascending order, and an entry matches exactly if its key is a leaf on
both sides with equal values. -/

namespace Interview

section Sorting

variable {x : String} {xs : List String}

theorem eraseReps_loop_cons (a b : String) (xs done : List String) :
    List.eraseRepsBy.loop (· == ·) a (b :: xs) done =
      if a = b then List.eraseRepsBy.loop (· == ·) a xs done
      else List.eraseRepsBy.loop (· == ·) b xs (a :: done) := by
  rw [List.eraseRepsBy.loop]
  by_cases h : a = b
  · rw [beq_iff_eq.mpr h, if_pos h]
  · rw [beq_eq_false_iff_ne.mpr h, if_neg h]

theorem mem_eraseReps_loop {a : String} {done : List String} :
    x ∈ List.eraseRepsBy.loop (· == ·) a xs done ↔ x ∈ done ∨ x ∈ a :: xs := by
  induction xs generalizing a done with
  | nil => simp [List.eraseRepsBy.loop, or_comm]
  | cons b xs ih =>
    rw [eraseReps_loop_cons]
    by_cases h : a = b
    · rw [if_pos h, ih, h]
      simp
    · rw [if_neg h, ih]
      simp only [List.mem_cons]
      tauto

theorem mem_eraseReps : x ∈ xs.eraseReps ↔ x ∈ xs := by
  cases xs with
  | nil => rfl
  | cons a xs => exact mem_eraseReps_loop.trans (by simp)

theorem pairwise_eraseReps_loop {a : String} {done : List String}
    (hd : (a :: done).Pairwise (fun x y => y < x)) (h : (a :: xs).Pairwise (· ≤ ·)) :
    (List.eraseRepsBy.loop (· == ·) a xs done).Pairwise (· < ·) := by
  induction xs generalizing a done with
  | nil => exact List.pairwise_reverse.mpr hd
  | cons b xs ih =>
    obtain ⟨ha, hrest⟩ := List.pairwise_cons.mp h
    rw [eraseReps_loop_cons]
    by_cases hab : a = b
    · rw [if_pos hab]
      exact ih hd (hab ▸ hrest)
    · rw [if_neg hab]
      have hlt : a < b := by
        refine String.not_le.mp fun hba => hab ?_
        exact String.le_antisymm (ha b List.mem_cons_self) hba
      refine ih (List.pairwise_cons.mpr ⟨fun d hm => ?_, hd⟩) hrest
      rcases List.mem_cons.mp hm with rfl | hm
      · exact hlt
      · exact String.lt_trans ((List.pairwise_cons.mp hd).1 d hm) hlt

theorem pairwise_eraseReps (h : xs.Pairwise (· ≤ ·)) : xs.eraseReps.Pairwise (· < ·) := by
  cases xs with
  | nil => exact .nil
  | cons a xs => exact pairwise_eraseReps_loop (List.pairwise_singleton _ a) h

theorem mem_sortedUnion {ys : List String} :
    x ∈ sortedUnion xs ys ↔ x ∈ xs ∨ x ∈ ys := by
  rw [sortedUnion, mem_eraseReps, List.mem_mergeSort, List.mem_append]

theorem pairwise_sortedUnion (xs ys : List String) : (sortedUnion xs ys).Pairwise (· < ·) := by
  refine pairwise_eraseReps ?_
  have hsorted : ((xs ++ ys).mergeSort fun a b => decide (a ≤ b)).Pairwise fun a b => decide (a ≤ b) :=
    List.pairwise_mergeSort (fun a b c hab hbc => by
      simp only [decide_eq_true_eq] at hab hbc ⊢
      exact String.le_trans hab hbc)
    (fun a b => by simpa using String.le_total a b) (xs ++ ys)
  simpa using hsorted

end Sorting

theorem Value.isTable_of_beq {v w : Value} (h : (v == w) = true) : v.isTable = w.isTable := by
  cases v with
  | table entries =>
    cases w with
    | table entries' => rfl
    | _ => cases h
  | _ =>
    cases w with
    | table entries => cases h
    | _ => rfl

mutual

/-- A value without the empty tables in it; nothing is left of a table that holds no leaf. -/
def Value.compact? : Value → Option Value
  | .table entries =>
    match compactEntries entries with
    | [] => none
    | e :: es => some (.table (e :: es))
  | leaf => some leaf

def compactEntries : List (String × Value) → List (String × Value)
  | [] => []
  | (k, v) :: rest => (v.compact?.map (k, ·)).toList ++ compactEntries rest

end

section Compact

variable {P : String → Prop}

theorem Value.compact?_leaf {v : Value} (h : v.isTable = false) : v.compact? = some v := by
  cases v with
  | table entries => cases h
  | _ => rfl

theorem compactEntries_cons (k : String) (v : Value) (rest : Table) :
    compactEntries ((k, v) :: rest) = (v.compact?.map (k, ·)).toList ++ compactEntries rest := rfl

mutual

theorem Value.leaves_compact? (v : Value) (key : String) :
    (v.compact?.map (Value.leaves key)).getD [] = v.leaves key := by
  match v with
  | .table entries =>
    have hin := entryLeaves_compact entries key
    rw [Value.leaves, Value.compact?]
    cases hc : compactEntries entries with
    | nil =>
      rw [hc] at hin
      exact hin
    | cons e es =>
      rw [hc] at hin
      exact hin
  | .str _ | .int _ | .float _ | .bool _ | .datetime _ | .array _ => rfl
termination_by sizeOf v

theorem entryLeaves_compact (entries : List (String × Value)) (parent : String) :
    entryLeaves parent (compactEntries entries) = entryLeaves parent entries := by
  match entries with
  | [] => rfl
  | (k, v) :: rest =>
    have hv := Value.leaves_compact? v (Key.below parent k)
    have hrest := entryLeaves_compact rest parent
    rw [compactEntries_cons, entryLeaves, ← hv, ← hrest]
    cases v.compact? with
    | none => rfl
    | some w => rfl
termination_by sizeOf entries

end

theorem keys_compactEntries {k : String} {entries : Table}
    (h : k ∈ (compactEntries entries).map Prod.fst) : k ∈ entries.map Prod.fst := by
  induction entries with
  | nil => exact h
  | cons e rest ih =>
    obtain ⟨k', v⟩ := e
    rw [compactEntries_cons, List.map_append, List.mem_append] at h
    rcases h with h | h
    · cases hc : v.compact? with
      | none => simp [hc] at h
      | some w =>
        obtain rfl : k = k' := by simpa [hc] using h
        exact List.mem_cons_self
    · exact List.mem_cons_of_mem _ (ih h)

theorem tidy_compactEntries {entries : List (String × Value)} (h : EntriesTidy P entries) :
    EntriesTidy P (compactEntries entries) := by
  match entries with
  | [] => trivial
  | (k, v) :: rest =>
    obtain ⟨hk, hnew, hv, hr⟩ := h
    have hrest := tidy_compactEntries hr
    rw [compactEntries_cons]
    cases hc : v.compact? with
    | none => exact hrest
    | some w =>
      refine ⟨hk, fun hm => hnew (keys_compactEntries hm), ?_, hrest⟩
      cases ht : v.isTable with
      | false =>
        rw [Value.compact?_leaf ht] at hc
        exact Option.some.inj hc ▸ hv
      | true =>
        obtain ⟨inner, rfl⟩ := Value.eq_table ht
        have hin : EntriesTidy P (compactEntries inner) := tidy_compactEntries hv
        rw [Value.compact?] at hc
        split at hc
        · cases hc
        · next e es he =>
          rw [he] at hin
          exact Option.some.inj hc ▸ hin
termination_by sizeOf entries

end Compact

namespace Settings

def compact (s : Settings) : Settings := ⟨compactEntries s.root⟩

theorem leaves_compact (s : Settings) : s.compact.leaves = s.leaves := entryLeaves_compact s.root ""

theorem keys_compact (s : Settings) : s.compact.keys = s.keys := by rw [keys, leaves_compact, keys]

theorem tidy_compact {P : String → Prop} {s : Settings} (h : EntriesTidy P s.root) :
    EntriesTidy P s.compact.root := tidy_compactEntries h

theorem leaf?_compact {s : Settings} (h : EntriesTidy Key.Plain s.root) (key : String) :
    s.compact.leaf? key = s.leaf? key := by
  refine Option.ext fun v => ?_
  rw [leaf?_eq_some, leaf?_eq_some, ← mem_leaves_iff h, ← mem_leaves_iff (tidy_compact h),
    leaves_compact]

end Settings

namespace Comparison

open Key

variable {a e : Settings} {key : String}

theorem keys_of (a e : Settings) : (of a e).map KeyComparison.key = sortedUnion a.keys e.keys := by
  simp [of, Function.comp_def]

theorem mem_of_iff {c : KeyComparison} :
    c ∈ of a e ↔ (c.key ∈ a.keys ∨ c.key ∈ e.keys) ∧ c = ⟨c.key, a.get? c.key, e.get? c.key⟩ := by
  rw [of, List.mem_map]
  constructor
  · rintro ⟨key, hk, rfl⟩
    exact ⟨mem_sortedUnion.mp hk, rfl⟩
  · rintro ⟨hk, hc⟩
    exact ⟨c.key, mem_sortedUnion.mpr hk, hc.symm⟩

theorem mem_keys_iff (h : EntriesTidy Plain a.root) : key ∈ a.keys ↔ ∃ v, a.leaf? key = some v := by
  rw [Settings.keys, List.mem_map]
  constructor
  · rintro ⟨⟨k, v⟩, hm, rfl⟩
    exact ⟨v, Settings.leaf?_eq_some.mpr ((Settings.mem_leaves_iff h).mp hm)⟩
  · rintro ⟨v, hl⟩
    exact ⟨(key, v), (Settings.mem_leaves_iff h).mpr (Settings.leaf?_eq_some.mp hl), rfl⟩

/-- Two absent values or two tables never meet in an entry, since its key is a leaf on one side. -/
theorem isMatch_iff (ha : EntriesTidy Plain a.root) (he : EntriesTidy Plain e.root)
    {c : KeyComparison} (hc : c ∈ of a e) :
    c.isMatch = true ↔
      ∃ v w, a.leaf? c.key = some v ∧ e.leaf? c.key = some w ∧ (v == w) = true := by
  obtain ⟨hk, hc⟩ := mem_of_iff.mp hc
  rw [mem_keys_iff ha, mem_keys_iff he] at hk
  rw [hc]
  dsimp only [KeyComparison.isMatch]
  constructor
  · intro hm
    have hleaf {s : Settings} {u v : Value} (hg : s.get? c.key = some v)
        (hl : s.leaf? c.key = some u) : v.isTable = false := by
      obtain ⟨hu, ht⟩ := Settings.leaf?_eq_some.mp hl
      rwa [← Option.some.inj (hu.symm.trans hg)]
    cases hga : a.get? c.key with
    | none =>
      cases hge : e.get? c.key with
      | none => simp [Settings.leaf?_eq_some, hga, hge] at hk
      | some w => simp [hga, hge] at hm
    | some v =>
      cases hge : e.get? c.key with
      | none => simp [hga, hge] at hm
      | some w =>
        simp only [hga, hge] at hm
        have hsame := Value.isTable_of_beq hm
        have hv : v.isTable = false := by
          rcases hk with ⟨u, hu⟩ | ⟨u, hu⟩
          · exact hleaf hga hu
          · exact hsame.trans (hleaf hge hu)
        exact ⟨v, w, Settings.leaf?_eq_some.mpr ⟨hga, hv⟩,
          Settings.leaf?_eq_some.mpr ⟨hge, hsame.symm.trans hv⟩, hm⟩
  · rintro ⟨v, w, hv, hw, heq⟩
    rw [(Settings.leaf?_eq_some.mp hv).1, (Settings.leaf?_eq_some.mp hw).1]
    exact heq

theorem isMatch_eq_true {c : Comparison} : c.isMatch = true ↔ ∀ k ∈ c, k.isMatch = true := by
  simp [isMatch, mismatches]

theorem matches_iff (ha : EntriesTidy Plain a.root) (he : EntriesTidy Plain e.root) :
    (of a e).isMatch = true ↔ (∀ key, key ∈ a.keys ↔ key ∈ e.keys) ∧
      ∀ key v w, (key, v) ∈ a.leaves → (key, w) ∈ e.leaves → (v == w) = true := by
  have hleaf {s : Settings} (hs : EntriesTidy Plain s.root) {key : String} {v : Value} :
      (key, v) ∈ s.leaves ↔ s.leaf? key = some v := by
    rw [Settings.mem_leaves_iff hs, Settings.leaf?_eq_some]
  simp only [mem_keys_iff ha, mem_keys_iff he, hleaf ha, hleaf he, isMatch_eq_true]
  constructor
  · intro hall
    have hboth (key : String) (hk : key ∈ a.keys ∨ key ∈ e.keys) :
        ∃ v w, a.leaf? key = some v ∧ e.leaf? key = some w ∧ (v == w) = true := by
      have hm : ⟨key, a.get? key, e.get? key⟩ ∈ of a e := mem_of_iff.mpr ⟨hk, rfl⟩
      exact (isMatch_iff ha he hm).mp (hall _ hm)
    refine ⟨fun key => ⟨fun h => ?_, fun h => ?_⟩, fun key v w hv hw => ?_⟩
    · obtain ⟨-, w, -, hw, -⟩ := hboth key (.inl ((mem_keys_iff ha).mpr h))
      exact ⟨w, hw⟩
    · obtain ⟨v, -, hv, -⟩ := hboth key (.inr ((mem_keys_iff he).mpr h))
      exact ⟨v, hv⟩
    · obtain ⟨v', w', hv', hw', heq⟩ := hboth key (.inl ((mem_keys_iff ha).mpr ⟨v, hv⟩))
      rw [Option.some.inj (hv.symm.trans hv'), Option.some.inj (hw.symm.trans hw')]
      exact heq
  · rintro ⟨hkeys, hvalues⟩ c hc
    obtain ⟨hk, -⟩ := mem_of_iff.mp hc
    rw [mem_keys_iff ha, mem_keys_iff he] at hk
    have hka : ∃ v, a.leaf? c.key = some v := hk.elim id (hkeys c.key).mpr
    obtain ⟨v, hv⟩ := hka
    obtain ⟨w, hw⟩ := (hkeys c.key).mp ⟨v, hv⟩
    exact (isMatch_iff ha he hc).mpr ⟨v, w, hv, hw, hvalues c.key v w hv hw⟩

/-- A key with a leaf on one side only is a mismatch, whether the other side has a table there or nothing. -/
theorem mismatch_of_lone_leaf (ha : EntriesTidy Plain a.root) (he : EntriesTidy Plain e.root)
    (hk : ¬ (key ∈ a.keys ↔ key ∈ e.keys)) :
    key ∈ (of a e).mismatches.map KeyComparison.key := by
  have hor : key ∈ a.keys ∨ key ∈ e.keys := by tauto
  have hc : ⟨key, a.get? key, e.get? key⟩ ∈ of a e := mem_of_iff.mpr ⟨hor, rfl⟩
  refine List.mem_map.mpr ⟨_, List.mem_filter.mpr ⟨hc, ?_⟩, rfl⟩
  rw [Bool.not_eq_true', Bool.eq_false_iff]
  intro hm
  obtain ⟨v, w, hv, hw, -⟩ := (isMatch_iff ha he hc).mp hm
  exact hk (iff_of_true ((mem_keys_iff ha).mpr ⟨v, hv⟩) ((mem_keys_iff he).mpr ⟨w, hw⟩))

theorem mismatches_eq (a e : Settings) : (of a e).mismatches.map KeyComparison.key =
    (sortedUnion a.keys e.keys).filter fun key =>
      !KeyComparison.isMatch ⟨key, a.get? key, e.get? key⟩ := by
  rw [mismatches, of, List.filter_map, List.map_map]
  exact List.map_id _

theorem mismatches_compact (ha : EntriesTidy Plain a.root) (he : EntriesTidy Plain e.root) :
    (of a.compact e.compact).mismatches.map KeyComparison.key =
      (of a e).mismatches.map KeyComparison.key := by
  rw [mismatches_eq, mismatches_eq, Settings.keys_compact, Settings.keys_compact]
  refine List.filter_congr fun key hk => ?_
  have hor := mem_sortedUnion.mp hk
  have hc : ⟨key, a.get? key, e.get? key⟩ ∈ of a e := mem_of_iff.mpr ⟨hor, rfl⟩
  have hc' : ⟨key, a.compact.get? key, e.compact.get? key⟩ ∈ of a.compact e.compact :=
    mem_of_iff.mpr ⟨by rwa [Settings.keys_compact, Settings.keys_compact], rfl⟩
  have hiff := isMatch_iff ha he hc
  have hiff' := isMatch_iff (Settings.tidy_compact ha) (Settings.tidy_compact he) hc'
  rw [Settings.leaf?_compact ha, Settings.leaf?_compact he] at hiff'
  exact congrArg not (Bool.eq_iff_iff.mpr (hiff'.trans hiff.symm))

/-- A comparison goes through the leaf keys of both stores in ascending order, and it is a match exactly if
the stores have the same leaves, up to equality of values. What is a leaf on one side only never matches,
and empty tables change nothing. -/
theorem isMatch_iff_same_leaves (ha : EntriesTidy Plain a.root) (he : EntriesTidy Plain e.root) :
    ((of a e).map KeyComparison.key).Pairwise (· < ·) ∧
      (∀ key, key ∈ (of a e).map KeyComparison.key ↔ key ∈ a.keys ∨ key ∈ e.keys) ∧
      ((of a e).isMatch = true ↔ (∀ key, key ∈ a.keys ↔ key ∈ e.keys) ∧
        ∀ key v w, (key, v) ∈ a.leaves → (key, w) ∈ e.leaves → (v == w) = true) ∧
      (∀ key, ¬ (key ∈ a.keys ↔ key ∈ e.keys) →
        key ∈ (of a e).mismatches.map KeyComparison.key) ∧
      (of a.compact e.compact).mismatches.map KeyComparison.key =
        (of a e).mismatches.map KeyComparison.key := by
  refine ⟨?_, fun key => ?_, matches_iff ha he, fun key => mismatch_of_lone_leaf ha he,
    mismatches_compact ha he⟩
  · rw [keys_of]
    exact pairwise_sortedUnion _ _
  · rw [keys_of]
    exact mem_sortedUnion

/-- A leaf against a table, below which there is another leaf, and an empty table against nothing. -/
theorem isMatch_iff_same_leaves_leaf_or_table :
    let a : Settings := ⟨[("a", .int 1), ("b", .table [])]⟩
    let e : Settings := ⟨[("a", .table [("c", .int 1)])]⟩
    EntriesTidy Plain a.root ∧ EntriesTidy Plain e.root ∧ (of a e).isMatch = false ∧
      (∀ key, key ∈ (of a e).map KeyComparison.key ↔ key = "a" ∨ key = "a.c") := by
  intro a e
  have ha : EntriesTidy Plain a.root := by simp [a, EntriesTidy, Value.Tidy, Plain]
  have he : EntriesTidy Plain e.root := by simp [e, EntriesTidy, Value.Tidy, Plain]
  have hka : a.keys = ["a"] := rfl
  have hke : e.keys = ["a.c"] := rfl
  obtain ⟨-, hkeys, hmatch, -⟩ := isMatch_iff_same_leaves ha he
  refine ⟨ha, he, ?_, fun key => ?_⟩
  · rw [Bool.eq_false_iff]
    intro hm
    have hsame := (hmatch.mp hm).1 "a"
    simp [hka, hke] at hsame
  · rw [hkeys, hka, hke, List.mem_singleton, List.mem_singleton]

end Comparison
end Interview
