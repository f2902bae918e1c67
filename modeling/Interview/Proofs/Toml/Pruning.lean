import Interview.Proofs.Settings.Leaves
import Interview.Proofs.Toml.Patching

/-! What stays of a document under a store: leaves at the dotted keys of leaves, and tables at those of
tables. -/

namespace Interview.Toml

variable {store : Settings}

theorem pruned_cases {key : String} {i item : Item} (h : i.pruned store key = some item) :
    (i.entries? = none ∧ item = i ∧ isLeafEntry (store.get? key) = true) ∨
      ∃ inner, i.entries? = some inner ∧ item = i.withEntries (prunedEntries store key inner) ∧
        (prunedEntries store key inner ≠ [] ∨ isTableEntry (store.get? key) = true) := by
  cases i with
  | table info entries =>
    simp only [Item.pruned, Option.ite_none_right_eq_some, Option.some.injEq] at h
    exact .inr ⟨entries, rfl, h.2.symm, by simpa using h.1⟩
  | inline info preamble entries =>
    simp only [Item.pruned, Option.ite_none_right_eq_some, Option.some.injEq] at h
    exact .inr ⟨entries, rfl, h.2.symm, by simpa using h.1⟩
  | _ =>
    simp only [Item.pruned, Option.ite_none_right_eq_some, Option.some.injEq] at h
    exact .inl ⟨rfl, h.2.symm, h.1⟩

theorem mem_prunedEntries {parent : String} {es : Entries} {k : Key} {item : Item}
    (h : (k, item) ∈ prunedEntries store parent es) :
    ∃ i, (k, i) ∈ es ∧ i.pruned store (Interview.Key.below parent k.name) = some item := by
  induction es with
  | nil => cases h
  | cons e rest ih =>
    obtain ⟨k', i⟩ := e
    rw [prunedEntries.eq_def] at h
    cases hi : i.pruned store (Interview.Key.below parent k'.name) with
    | none =>
      simp only [hi] at h
      obtain ⟨i', hm, hp⟩ := ih h
      exact ⟨i', List.mem_cons_of_mem _ hm, hp⟩
    | some kept =>
      simp only [hi] at h
      rcases List.mem_cons.mp h with he | h
      · obtain ⟨rfl, rfl⟩ := Prod.mk.inj he
        exact ⟨i, by simp, hi⟩
      · obtain ⟨i', hm, hp⟩ := ih h
        exact ⟨i', List.mem_cons_of_mem _ hm, hp⟩

theorem get?_prunedEntries {parent name : String} {es : Entries} {item : Item}
    (h : Entries.get? name (prunedEntries store parent es) = some item) :
    ∃ i : Item, i.pruned store (Interview.Key.below parent name) = some item := by
  obtain ⟨k, hm, rfl⟩ := Entries.exists_mem_of_get? h
  obtain ⟨i, -, hp⟩ := mem_prunedEntries hm
  exact ⟨i, hp⟩

theorem inside_pruned {parent name : String} {es : Entries} {inInline : Bool} {e : Bool × Entries}
    (h : (Entries.get? name (prunedEntries store parent es)).bind (Item.inside? inInline) = some e) :
    ∃ inner, e.2 = prunedEntries store (Interview.Key.below parent name) inner ∧
      ∃ i item, Item.entries? i = some inner ∧
        i.pruned store (Interview.Key.below parent name) = some item := by
  obtain ⟨item, hg, he⟩ := Option.bind_eq_some_iff.mp h
  obtain ⟨i, hi⟩ := get?_prunedEntries hg
  rcases pruned_cases hi with ⟨hin, rfl, -⟩ | ⟨inner, hin, rfl, -⟩
  · rw [inside?_eq_none hin] at he
    cases he
  · rw [inside?_withEntries inInline i hin] at he
    obtain ⟨_, -, rfl⟩ := Option.map_eq_some_iff.mp he
    exact ⟨inner, rfl, i, _, hin, hi⟩

theorem isLeafEntry_eq_true {o : Option Value} :
    isLeafEntry o = true ↔ ∃ v, o = some v ∧ v.isTable = false := by
  cases o with
  | none => simp [isLeafEntry]
  | some v => cases v <;> simp [isLeafEntry, Value.isTable]

theorem isTableEntry_eq_true {o : Option Value} :
    isTableEntry o = true ↔ ∃ entries, o = some (.table entries) := by
  cases o with
  | none => simp [isTableEntry]
  | some v => cases v <;> simp [isTableEntry]

theorem isEmpty_below {key : String} (h : key.isEmpty = false) (name : String) :
    (Interview.Key.below key name).isEmpty = false := by
  rw [Interview.Key.below, h, if_neg Bool.false_ne_true]
  simp

theorem isEmpty_below_name {name : String} (h : name ≠ "") (parent : String) :
    (Interview.Key.below parent name).isEmpty = false := by
  unfold Interview.Key.below
  split <;> simp [h]

theorem sizeOf_entry_lt {i i' : Item} {k : Key} {inner : Entries} (hin : i.entries? = some inner)
    (hm : (k, i') ∈ inner) : sizeOf i' < sizeOf i := by
  have hmem := List.sizeOf_lt_of_mem hm
  have hpair : sizeOf (k, i') = 1 + sizeOf k + sizeOf i' := rfl
  cases i with
  | table info entries =>
    obtain rfl := Option.some.inj hin
    have hsize : sizeOf (Item.table info entries) = 1 + sizeOf info + sizeOf entries := by simp
    omega
  | inline info preamble entries =>
    obtain rfl := Option.some.inj hin
    have hsize : sizeOf (Item.inline info preamble entries) =
        1 + sizeOf info + sizeOf preamble + sizeOf entries := by simp
    omega
  | _ => cases hin

/-- A table that is kept has a dotted key of a table, as something of the store is at or below it. -/
theorem table_of_pruned {key : String} (hkey : key.isEmpty = false) {i item : Item} {inner : Entries}
    (hin : i.entries? = some inner) (h : i.pruned store key = some item) :
    isTableEntry (store.get? key) = true := by
  rcases pruned_cases h with ⟨hnone, -, -⟩ | ⟨inner', hin', -, hkept | htable⟩
  · rw [hin] at hnone
    cases hnone
  · obtain ⟨⟨k, item'⟩, hkept⟩ := List.exists_mem_of_ne_nil _ hkept
    obtain ⟨i', hm, hp⟩ := mem_prunedEntries hkept
    have hsize := sizeOf_entry_lt hin' hm
    have hfound : ∃ v, store.get? (Interview.Key.below key k.name) = some v := by
      rcases pruned_cases hp with ⟨-, -, hl⟩ | ⟨inner'', hin'', -⟩
      · obtain ⟨v, hv, -⟩ := isLeafEntry_eq_true.mp hl
        exact ⟨v, hv⟩
      · have htable := table_of_pruned (isEmpty_below hkey k.name) hin'' hp
        obtain ⟨entries, he⟩ := isTableEntry_eq_true.mp htable
        exact ⟨_, he⟩
    obtain ⟨v, hv⟩ := hfound
    rw [Interview.Key.below, hkey, if_neg Bool.false_ne_true, Settings.get?,
      Interview.Key.segments_append] at hv
    exact isTableEntry_eq_true.mpr (Table.table_of_find?_append hv
      (Interview.Key.segments_ne_nil key) (Interview.Key.segments_ne_nil k.name))
  · exact htable
termination_by sizeOf i

theorem leaf_of_leafAt_pruned {parent : String} {q : List String} {inInline : Bool} {es : Entries}
    {v : Value} (h : leafAt? inInline q (prunedEntries store parent es) = some v) :
    isLeafEntry (store.get? (q.foldl Interview.Key.below parent)) = true := by
  induction q generalizing parent inInline es with
  | nil => cases h
  | cons s q ih =>
    cases q with
    | nil =>
      obtain ⟨item, hg, hv⟩ := Option.bind_eq_some_iff.mp h
      obtain ⟨i, hi⟩ := get?_prunedEntries hg
      rcases pruned_cases hi with ⟨-, -, hl⟩ | ⟨inner, hin, rfl, -⟩
      · exact hl
      · rw [leaf?_withEntries hin] at hv
        cases hv
    | cons r q =>
      rw [leafAt?_cons_cons] at h
      obtain ⟨e, hb, h⟩ := Option.bind_eq_some_iff.mp h
      obtain ⟨inner, hin, -⟩ := inside_pruned hb
      rw [hin] at h
      exact ih h

theorem table_of_tableAt_pruned {parent : String} {q : List String} (hq : ∀ s ∈ q, s ≠ "")
    {inInline : Bool} {es : Entries}
    (h : tableAt inInline q (prunedEntries store parent es) = true) :
    isTableEntry (store.get? (q.foldl Interview.Key.below parent)) = true := by
  induction q generalizing parent inInline es with
  | nil => cases h
  | cons s q ih =>
    obtain ⟨hs, hq⟩ := List.forall_mem_cons.mp hq
    rw [tableAt_cons] at h
    cases hb : (Entries.get? s (prunedEntries store parent es)).bind (Item.inside? inInline) with
    | none => simp [hb] at h
    | some e =>
      obtain ⟨inner, hin, i, item, hi, hp⟩ := inside_pruned hb
      cases q with
      | nil => exact table_of_pruned (isEmpty_below_name hs parent) hi hp
      | cons r q => exact ih hq (by simpa [hb, hin] using h)

end Interview.Toml
