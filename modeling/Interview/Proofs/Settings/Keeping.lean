import Interview.Proofs.Settings.Placing

/-! Writes that take nothing away. A key that does not hold a table can be written without touching any
other key: what it leads to stays in its place, leaf by leaf and table by table. -/

namespace Interview

theorem Key.segments_inj {key other : String} (h : segments key = segments other) : key = other := by
  rw [← ofSegments_segments key, h, ofSegments_segments]

namespace Settings

variable {s mid after : Settings} {key : String} {v : Value}

def leaf? (s : Settings) (key : String) : Option Value := s.root.leaf? (Key.segments key)

def HasTable (s : Settings) (key : String) : Prop := ∃ entries, s.get? key = some (.table entries)

theorem leaf?_eq_some : s.leaf? key = some v ↔ s.get? key = some v ∧ v.isTable = false :=
  Table.leaf?_eq_some

theorem leaf?_or_table (h : s.get? key = some v) : s.leaf? key = some v ∨ s.HasTable key := by
  cases ht : v.isTable with
  | false => exact .inl (leaf?_eq_some.mpr ⟨h, ht⟩)
  | true =>
    obtain ⟨entries, rfl⟩ := Value.eq_table ht
    exact .inr ⟨entries, h⟩

theorem contains_iff : s.contains key = true ↔ (∃ v, s.leaf? key = some v) ∨ s.HasTable key := by
  constructor
  · intro h
    obtain ⟨v, hv⟩ := Option.isSome_iff_exists.mp h
    rcases leaf?_or_table hv with hl | ht
    · exact .inl ⟨v, hl⟩
    · exact .inr ht
  · rintro (⟨v, hl⟩ | ⟨entries, he⟩)
    · exact Option.isSome_iff_exists.mpr ⟨v, (leaf?_eq_some.mp hl).1⟩
    · exact Option.isSome_iff_exists.mpr ⟨_, he⟩

theorem contains_write_self (h : s.write key v = (.ok (), after)) : after.contains key = true :=
  Option.isSome_iff_exists.mpr ⟨v, get?_write_self h⟩

/-- A later store still has what an earlier one had. Only at some keys may the leaf be another one. -/
structure Keeps (s after : Settings) (changed : String → Prop) : Prop where
  leaf : ∀ key v, ¬ changed key → s.leaf? key = some v → after.leaf? key = some v
  table : ∀ key, s.HasTable key → after.HasTable key
  found : ∀ key, s.contains key = true → after.contains key = true

namespace Keeps

variable {changed other : String → Prop}

theorem refl (s : Settings) (changed : String → Prop) : Keeps s s changed :=
  ⟨fun _ _ _ h => h, fun _ h => h, fun _ h => h⟩

theorem trans (h : Keeps s mid changed) (h' : Keeps mid after changed) : Keeps s after changed where
  leaf key v hc hl := h'.leaf key v hc (h.leaf key v hc hl)
  table key ht := h'.table key (h.table key ht)
  found key hf := h'.found key (h.found key hf)

theorem mono (h : Keeps s after changed) (hc : ∀ key, changed key → other key) :
    Keeps s after other where
  leaf key v hn := h.leaf key v fun hk => hn (hc key hk)
  table := h.table
  found := h.found

end Keeps

theorem hasTable_above_write (h : s.write key v = (.ok (), after)) {above : String}
    (hp : Key.segments above <+: Key.segments key) (hne : above ≠ key) :
    s.leaf? above = none ∧ after.HasTable above := by
  rcases s.write_cases key v with ⟨e, hw⟩ | ⟨hopen, hw⟩
  · simp [hw] at h
  · obtain rfl : _ = after := by simpa [hw] using h
    have hsegments : Key.segments above ≠ Key.segments key := fun he => hne (Key.segments_inj he)
    refine ⟨Table.open_iff.mp (Table.open_of_write hopen) _ hp hsegments, ?_⟩
    obtain ⟨more, hm⟩ := hp
    have hmore : more ≠ [] := by
      rintro rfl
      exact hsegments (by simpa using hm)
    have ho : Table.Open (Key.segments above ++ more) s.root := hm ▸ Table.open_of_write hopen
    have ht := Table.table_above_write (v := v) (Key.segments_ne_nil above) hmore ho
    rwa [hm] at ht

theorem hasTable_of_below {below : String} (h : s.get? below = some v)
    (hp : Key.segments key <+: Key.segments below) (hne : below ≠ key) : s.HasTable key := by
  obtain ⟨more, hm⟩ := hp
  have hmore : more ≠ [] := by
    rintro rfl
    exact hne (Key.segments_inj (by simpa using hm.symm))
  unfold get? at h
  rw [← hm] at h
  exact Table.table_of_find?_append h (Key.segments_ne_nil key) hmore

/-- A write to a key without a table changes at most the leaf that was there. -/
theorem write_keeps (h : s.write key v = (.ok (), after)) (ht : ¬ s.HasTable key)
    {changed : String → Prop} (hc : s.contains key = true → changed key) : s.Keeps after changed := by
  have hleaf : ∀ other w, other ≠ key → s.leaf? other = some w → after.leaf? other = some w := by
    intro other w hne hl
    obtain ⟨hg, hw⟩ := leaf?_eq_some.mp hl
    by_cases habove : Key.segments other <+: Key.segments key
    · rw [(hasTable_above_write h habove hne).1] at hl
      cases hl
    · by_cases hbelow : Key.segments key <+: Key.segments other
      · exact absurd (hasTable_of_below hg hbelow hne) ht
      · rw [leaf?_eq_some, get?_write_of_incomparable h habove hbelow]
        exact ⟨hg, hw⟩
  have htable : ∀ other, s.HasTable other → after.HasTable other := by
    rintro other ⟨entries, he⟩
    have hne : other ≠ key := by
      rintro rfl
      exact ht ⟨entries, he⟩
    by_cases habove : Key.segments other <+: Key.segments key
    · exact (hasTable_above_write h habove hne).2
    · by_cases hbelow : Key.segments key <+: Key.segments other
      · exact absurd (hasTable_of_below he hbelow hne) ht
      · exact ⟨entries, by rw [get?_write_of_incomparable h habove hbelow, he]⟩
  refine ⟨?_, htable, ?_⟩
  · intro other w hn hl
    refine hleaf other w ?_ hl
    rintro rfl
    exact hn (hc (contains_iff.mpr (.inl ⟨w, hl⟩)))
  · intro other hf
    by_cases hne : other = key
    · subst hne
      exact contains_write_self h
    · rcases contains_iff.mp hf with ⟨w, hl⟩ | ht'
      · exact contains_iff.mpr (.inl ⟨w, hleaf other w hne hl⟩)
      · exact contains_iff.mpr (.inr (htable other ht'))

/-- A leaf that is written to such a key shows at its own path only, whatever the names there. -/
theorem leaf?_root_write (h : s.write key v = (.ok (), after)) (ht : ¬ s.HasTable key)
    (hv : v.isTable = false) {path : List String} (hp : path ≠ Key.segments key) :
    after.root.leaf? path = s.root.leaf? path := by
  rcases s.write_cases key v with ⟨e, hw⟩ | ⟨hopen, hw⟩
  · simp [hw] at h
  · obtain rfl : _ = after := by simpa [hw] using h
    exact Table.leaf?_write_of_ne (Table.open_of_write hopen) (fun entries he => ht ⟨entries, he⟩)
      hv hp

end Settings
end Interview
