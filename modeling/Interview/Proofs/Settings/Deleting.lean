import Interview.Proofs.Settings.Keeping

/-! Deletions, and changes that stay at some keys. A write and a deletion reach what stands at and below
their own key; above it only the tables on the way are others. -/

namespace Interview

namespace Table

theorem take?_cons_cons (s r : String) (path : List String) (t : Table) :
    t.take? (s :: r :: path) = (t.nested? s).bind fun nested =>
      (nested.take? (r :: path)).map fun e => (e.1, t.insert s (.table e.2)) := by
  cases hs : t.get? s with
  | none => simp [take?, nested?, hs]
  | some w => cases w <;> simp [take?, nested?, hs]

theorem find?_erase_of_ne {key s : String} (h : key ≠ s) (path : List String) (t : Table) :
    (t.erase key).find? (s :: path) = t.find? (s :: path) := by
  cases path <;> simp [find?, get?_erase_of_ne h]

variable {t after : Table} {v : Value} {path other more : List String}

theorem find?_of_take? (h : t.take? path = some (v, after)) : t.find? path = some v := by
  induction path generalizing t after with
  | nil => cases h
  | cons s path ih =>
    cases path with
    | nil =>
      obtain ⟨w, hg, he⟩ := Option.map_eq_some_iff.mp h
      rw [← (Prod.mk.inj he).1]
      exact hg
    | cons r path =>
      rw [take?_cons_cons] at h
      obtain ⟨nested, hn, h⟩ := Option.bind_eq_some_iff.mp h
      obtain ⟨⟨w, inner⟩, ht, he⟩ := Option.map_eq_some_iff.mp h
      obtain ⟨rfl, rfl⟩ := Prod.mk.inj he
      rw [find?_cons_cons, hn]
      exact ih ht

theorem take?_of_find? (h : t.find? path = some v) : ∃ after, t.take? path = some (v, after) := by
  induction path generalizing t with
  | nil => cases h
  | cons s path ih =>
    cases path with
    | nil =>
      have hg : t.get? s = some v := h
      exact ⟨t.erase s, by simp [take?, hg]⟩
    | cons r path =>
      rw [find?_cons_cons] at h
      obtain ⟨nested, hn, h⟩ := Option.bind_eq_some_iff.mp h
      obtain ⟨inner, ht⟩ := ih h
      exact ⟨t.insert s (.table inner), by simp [take?_cons_cons, hn, ht]⟩

theorem find?_take?_of_incomparable (h : t.take? path = some (v, after)) (hp : ¬ other <+: path)
    (ho : ¬ path <+: other) : after.find? other = t.find? other := by
  induction path generalizing t after other with
  | nil => cases h
  | cons s path ih =>
    cases other with
    | nil => exact absurd List.nil_prefix hp
    | cons s' other =>
      by_cases hs : s = s'
      · subst s'
        have hp' : ¬ other <+: path := fun h => hp (List.cons_prefix_cons.mpr ⟨rfl, h⟩)
        have ho' : ¬ path <+: other := fun h => ho (List.cons_prefix_cons.mpr ⟨rfl, h⟩)
        cases path with
        | nil => exact absurd List.nil_prefix ho'
        | cons r path =>
          cases other with
          | nil => exact absurd List.nil_prefix hp'
          | cons r' other =>
            rw [take?_cons_cons] at h
            obtain ⟨nested, hn, h⟩ := Option.bind_eq_some_iff.mp h
            obtain ⟨⟨w, inner⟩, ht, he⟩ := Option.map_eq_some_iff.mp h
            obtain ⟨rfl, rfl⟩ := Prod.mk.inj he
            rw [find?_cons_cons, find?_cons_cons, nested?_insert_table, hn]
            exact ih ht hp' ho'
      · cases path with
        | nil =>
          obtain ⟨w, -, he⟩ := Option.map_eq_some_iff.mp h
          obtain ⟨-, rfl⟩ := Prod.mk.inj he
          exact find?_erase_of_ne hs other t
        | cons r path =>
          rw [take?_cons_cons] at h
          obtain ⟨nested, -, h⟩ := Option.bind_eq_some_iff.mp h
          obtain ⟨⟨w, inner⟩, -, he⟩ := Option.map_eq_some_iff.mp h
          obtain ⟨-, rfl⟩ := Prod.mk.inj he
          exact find?_insert_of_ne hs _ other t

theorem find?_take?_self (h : t.take? path = some (v, after)) : after.find? path = none := by
  induction path generalizing t after with
  | nil => cases h
  | cons s path ih =>
    cases path with
    | nil =>
      obtain ⟨w, -, he⟩ := Option.map_eq_some_iff.mp h
      obtain ⟨-, rfl⟩ := Prod.mk.inj he
      exact get?_erase_self s t
    | cons r path =>
      rw [take?_cons_cons] at h
      obtain ⟨nested, -, h⟩ := Option.bind_eq_some_iff.mp h
      obtain ⟨⟨w, inner⟩, ht, he⟩ := Option.map_eq_some_iff.mp h
      obtain ⟨rfl, rfl⟩ := Prod.mk.inj he
      rw [find?_cons_cons, nested?_insert_table]
      exact ih ht

theorem table_above_take? (h : t.take? (path ++ more) = some (v, after)) (hp : path ≠ [])
    (hm : more ≠ []) : ∃ entries, after.find? path = some (.table entries) := by
  induction path generalizing t after with
  | nil => exact absurd rfl hp
  | cons s path ih =>
    obtain ⟨r, rest, hr⟩ := List.exists_cons_of_ne_nil (show path ++ more ≠ [] by simp [hm])
    rw [List.cons_append, hr, take?_cons_cons, ← hr] at h
    obtain ⟨nested, hn, h⟩ := Option.bind_eq_some_iff.mp h
    obtain ⟨⟨w, inner⟩, ht, he⟩ := Option.map_eq_some_iff.mp h
    obtain ⟨rfl, rfl⟩ := Prod.mk.inj he
    cases path with
    | nil => exact ⟨inner, by simp [find?]⟩
    | cons r' path =>
      rw [find?_cons_cons, nested?_insert_table]
      exact ih ht (List.cons_ne_nil r' path)

theorem find?_take?_eq_none (h : t.take? path = some (v, after)) (ho : t.find? other = none) :
    after.find? other = none := by
  have hf := find?_of_take? h
  by_cases hp : other <+: path
  · obtain ⟨more, rfl⟩ := hp
    by_cases hm : more = []
    · subst hm
      rw [List.append_nil, ho] at hf
      cases hf
    · by_cases hn : other = []
      · rw [hn]
        rfl
      · obtain ⟨entries, he⟩ := table_of_find?_append hf hn hm
        rw [ho] at he
        cases he
  · by_cases hp' : path <+: other
    · -- below what was taken there would have to be a table in its place
      obtain ⟨more, rfl⟩ := hp'
      cases hl : after.find? (path ++ more) with
      | none => rfl
      | some w =>
        have hm : more ≠ [] := by
          rintro rfl
          rw [List.append_nil, hf] at ho
          cases ho
        have hn : path ≠ [] := by
          rintro rfl
          cases h
        obtain ⟨entries, he⟩ := table_of_find?_append hl hn hm
        rw [find?_take?_self h] at he
        cases he
    · rw [find?_take?_of_incomparable h hp hp', ho]

end Table

namespace Settings

variable {s mid after : Settings} {key : String} {v : Value} {keys more : List String}

theorem take?_of_delete (h : s.delete key = .ok (v, after)) :
    s.root.take? (Key.segments key) = some (v, after.root) := by
  unfold delete at h
  cases ht : s.root.take? (Key.segments key) with
  | none => simp [ht] at h
  | some e =>
    obtain ⟨w, root⟩ := e
    obtain ⟨rfl, rfl⟩ : w = v ∧ (⟨root⟩ : Settings) = after := by simpa [ht] using h
    rfl

theorem delete_of_get? (h : s.get? key = some v) : ∃ after, s.delete key = .ok (v, after) := by
  obtain ⟨root, ht⟩ := Table.take?_of_find? h
  exact ⟨⟨root⟩, by simp [delete, ht]⟩

theorem delete_eq_error {e : Error} :
    s.delete key = .error e ↔ s.get? key = none ∧ e = .keyNotFound key := by
  cases hg : s.get? key with
  | some v =>
    obtain ⟨after, hd⟩ := delete_of_get? hg
    simp [hd]
  | none =>
    cases ht : s.root.take? (Key.segments key) with
    | some taken =>
      obtain ⟨v, root⟩ := taken
      have hf := Table.find?_of_take? ht
      have hnone : s.root.find? (Key.segments key) = none := hg
      rw [hnone] at hf
      cases hf
    | none => simp [delete, ht, eq_comm]

theorem hasTable_above_delete (h : s.delete key = .ok (v, after)) {above : String}
    (hp : Key.segments above <+: Key.segments key) (hne : above ≠ key) :
    s.HasTable above ∧ after.HasTable above := by
  obtain ⟨more, hm⟩ := hp
  have hmore : more ≠ [] := by
    rintro rfl
    exact hne (Key.segments_inj (by simpa using hm))
  have ht := take?_of_delete h
  rw [← hm] at ht
  have hn := Key.segments_ne_nil above
  have hbefore := Table.table_of_find?_append (Table.find?_of_take? ht) hn hmore
  exact ⟨hbefore, Table.table_above_take? ht hn hmore⟩

theorem leaf?_of_hasTable (h : s.HasTable key) : s.leaf? key = none := by
  obtain ⟨entries, he⟩ := h
  cases hl : s.leaf? key with
  | none => rfl
  | some w =>
    obtain ⟨hg, hw⟩ := leaf?_eq_some.mp hl
    rw [he] at hg
    cases hg
    cases hw

/-- A change that stays at some keys: elsewhere a key leads to what it led to, except that above one of
them its table is another one, or is new. -/
structure ChangesAt (s after : Settings) (keys : List String) : Prop where
  value : ∀ other, (∀ key ∈ keys, ¬ Key.segments key <+: Key.segments other ∧
    ¬ Key.segments other <+: Key.segments key) → after.get? other = s.get? other
  leaf : ∀ other, (∀ key ∈ keys, ¬ Key.segments key <+: Key.segments other) →
    after.leaf? other = s.leaf? other
  table : ∀ other, (∀ key ∈ keys, ¬ Key.segments key <+: Key.segments other) →
    s.HasTable other → after.HasTable other

namespace ChangesAt

theorem refl (s : Settings) : ChangesAt s s [] := ⟨fun _ _ => rfl, fun _ _ => rfl, fun _ _ h => h⟩

theorem trans (h : ChangesAt s mid keys) (h' : ChangesAt mid after more) :
    ChangesAt s after (keys ++ more) where
  value other ho :=
    (h'.value other fun key hk => ho key (List.mem_append_right keys hk)).trans
      (h.value other fun key hk => ho key (List.mem_append_left more hk))
  leaf other ho :=
    (h'.leaf other fun key hk => ho key (List.mem_append_right keys hk)).trans
      (h.leaf other fun key hk => ho key (List.mem_append_left more hk))
  table other ho ht :=
    h'.table other (fun key hk => ho key (List.mem_append_right keys hk))
      (h.table other (fun key hk => ho key (List.mem_append_left more hk)) ht)

/-- A change at one key leaves alone what stands beside it, and no leaf is above it before or after. -/
theorem of_beside
    (hvalue : ∀ other, ¬ Key.segments other <+: Key.segments key →
      ¬ Key.segments key <+: Key.segments other → after.get? other = s.get? other)
    (habove : ∀ other, Key.segments other <+: Key.segments key → other ≠ key →
      s.leaf? other = none ∧ after.HasTable other) : ChangesAt s after [key] := by
  refine ⟨fun other ho => ?_, fun other ho => ?_, fun other ho ht => ?_⟩
  · obtain ⟨hk, ho⟩ := ho key List.mem_cons_self
    exact hvalue other ho hk
  · have hk := ho key List.mem_cons_self
    by_cases hp : Key.segments other <+: Key.segments key
    · have hne : other ≠ key := by
        rintro rfl
        exact hk (List.prefix_refl _)
      obtain ⟨hs, ht⟩ := habove other hp hne
      rw [hs, leaf?_of_hasTable ht]
    · have hg := hvalue other hp hk
      unfold get? at hg
      rw [leaf?, leaf?, Table.leaf?, Table.leaf?, hg]
  · have hk := ho key List.mem_cons_self
    by_cases hp : Key.segments other <+: Key.segments key
    · have hne : other ≠ key := by
        rintro rfl
        exact hk (List.prefix_refl _)
      exact (habove other hp hne).2
    · obtain ⟨entries, he⟩ := ht
      exact ⟨entries, (hvalue other hp hk).trans he⟩

end ChangesAt

theorem write_changesAt (h : s.write key v = (.ok (), after)) : ChangesAt s after [key] :=
  .of_beside (fun _ hp hk => get?_write_of_incomparable h hp hk)
    fun _ hp hne => hasTable_above_write h hp hne

theorem delete_changesAt (h : s.delete key = .ok (v, after)) : ChangesAt s after [key] := by
  refine .of_beside (fun other hp hk => ?_) fun other hp hne => ?_
  · exact Table.find?_take?_of_incomparable (take?_of_delete h) hp hk
  · obtain ⟨hs, ht⟩ := hasTable_above_delete h hp hne
    exact ⟨leaf?_of_hasTable hs, ht⟩

inductive Deletes : Settings → List String → Settings → Prop
  | nil {s : Settings} : Deletes s [] s
  | cons {s t u : Settings} {key : String} {v : Value} {rest : List String} :
    s.delete key = .ok (v, t) → Deletes t rest u → Deletes s (key :: rest) u

theorem Deletes.changesAt (h : Deletes s keys after) : ChangesAt s after keys := by
  induction h with
  | nil => exact .refl _
  | cons hd _ ih => exact (delete_changesAt hd).trans ih

theorem Deletes.absent (h : Deletes s keys after) {other : String} (ho : s.get? other = none) :
    after.get? other = none := by
  induction h with
  | nil => exact ho
  | cons hd _ ih => exact ih (Table.find?_take?_eq_none (take?_of_delete hd) ho)

theorem Deletes.gone (h : Deletes s keys after) : ∀ key ∈ keys, after.get? key = none := by
  induction h with
  | nil => simp
  | cons hd hrest ih =>
    exact List.forall_mem_cons.mpr ⟨hrest.absent (Table.find?_take?_self (take?_of_delete hd)), ih⟩

theorem Deletes.eq_iff (h : s.Deletes keys after) : after = s ↔ keys = [] := by
  cases h with
  | nil => simp
  | @cons _ t _ key v rest hd hrest =>
    have hthere : s.get? key = some v := Table.find?_of_take? (take?_of_delete hd)
    have hgone : after.get? key = none := (Deletes.cons hd hrest).gone key List.mem_cons_self
    refine ⟨fun he => ?_, fun he => by cases he⟩
    rw [he, hthere] at hgone
    cases hgone

end Settings
end Interview
