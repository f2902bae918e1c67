import Interview.Proofs.Settings.Reordering
import Interview.Proofs.Settings.Storing
import Interview.Proofs.Settings.Taking
import Interview.Proofs.Walk.Execution

/-! A deletion as a whole. It finds what a look-up finds, takes that away and nothing else, and takes a
write back that had added to a table. -/

namespace Interview

namespace Table

variable {t after : Table} {v : Value} {path q : List String}

theorem keys_erase_eq (key : String) (t : Table) :
    (t.erase key).map Prod.fst = (t.map Prod.fst).filter (· ≠ key) := by
  rw [erase, List.filter_map]
  congr 1
  refine List.filter_congr fun e _ => ?_
  simp [bne, beq_eq_decide]

theorem nested?_erase_of_ne {key s : String} (h : key ≠ s) (t : Table) :
    (t.erase key).nested? s = t.nested? s := by
  simp only [nested?, get?_erase_of_ne h]

theorem keys_insert_of_get? {key : String} {w : Value} (h : t.get? key = some w) (v : Value) :
    (t.insert key v).map Prod.fst = t.map Prod.fst := by
  rw [keys_insert_eq, if_pos (mem_keys_of_get? h), List.append_nil]

/-- Every table above and beside what was taken has its keys in the order that they had, without the one
that was taken. -/
theorem keysAt?_take? (h : t.take? path = some (v, after)) (hq : ¬ path <+: q) :
    after.keysAt? q = (t.keysAt? q).map fun ks => ks.filter fun r => q ++ [r] ≠ path := by
  have hsame {u : Table} (hu : u.keysAt? q = t.keysAt? q) (hne : ∀ r, q ++ [r] ≠ path) :
      u.keysAt? q = (t.keysAt? q).map fun ks => ks.filter fun r => q ++ [r] ≠ path := by
    simp [hu, hne]
  induction path generalizing t after q with
  | nil => cases h
  | cons s path ih =>
    cases path with
    | nil =>
      obtain ⟨w, -, he⟩ := Option.map_eq_some_iff.mp h
      obtain ⟨-, rfl⟩ := Prod.mk.inj he
      cases q with
      | nil => simp [keysAt?, keys_erase_eq]
      | cons s' q =>
        have hs : s ≠ s' := by
          rintro rfl
          exact hq (by simp)
        refine hsame ?_ (by simp)
        rw [keysAt?, keysAt?, nested?_erase_of_ne hs]
    | cons r path =>
      rw [take?_cons_cons] at h
      obtain ⟨nested, hn, h⟩ := Option.bind_eq_some_iff.mp h
      obtain ⟨⟨w, inner⟩, ht, he⟩ := Option.map_eq_some_iff.mp h
      obtain ⟨rfl, rfl⟩ := Prod.mk.inj he
      cases q with
      | nil =>
        refine hsame ?_ (by simp)
        rw [keysAt?, keysAt?, keys_insert_of_get? (nested?_eq_some.mp hn)]
      | cons s' q =>
        by_cases hs : s = s'
        · subst s'
          have hq' : ¬ r :: path <+: q := fun hp => hq (List.cons_prefix_cons.mpr ⟨rfl, hp⟩)
          have hinner := ih ht hq' fun {u} hu hne => by simp [hu, hne]
          rw [keysAt?, keysAt?, nested?_insert_table, hn, Option.bind_some, Option.bind_some, hinner]
          simp
        · exact hsame (keysAt?_insert_of_ne hs _ q t) (by simp [Ne.symm hs])

theorem take?_write {parent : List String} {last : String}
    (ha : t.find? (parent ++ [last]) = none)
    (hp : parent ≠ [] → ∃ entries, t.find? parent = some (.table entries)) :
    (t.write v (parent ++ [last])).1 = none ∧
      (t.write v (parent ++ [last])).2.take? (parent ++ [last]) = some (v, t) := by
  induction parent generalizing t with
  | nil =>
    have hl : last ∉ t.map Prod.fst := fun hm => by
      obtain ⟨w, hw⟩ := mem_keys_iff.mp hm
      cases ha.symm.trans hw
    refine ⟨rfl, ?_⟩
    have herase : erase last (t ++ [(last, v)]) = t ++ [] := erase_split hl List.not_mem_nil
    simp only [List.nil_append, write, take?, get?_insert_self, Option.map_some]
    rw [insert_of_not_mem hl, herase, List.append_nil]
  | cons s parent ih =>
    obtain ⟨r, path, hr⟩ := List.exists_cons_of_ne_nil (show parent ++ [last] ≠ [] by simp)
    obtain ⟨nested, hn, hparent⟩ : ∃ nested : Table, t.get? s = some (.table nested) ∧
        (parent ≠ [] → ∃ entries, nested.find? parent = some (.table entries)) := by
      obtain ⟨entries, he⟩ := hp (List.cons_ne_nil s parent)
      cases parent with
      | nil => exact ⟨entries, he, fun h => absurd rfl h⟩
      | cons r' parent =>
        rw [find?_cons_cons] at he
        obtain ⟨nested, hn, he⟩ := Option.bind_eq_some_iff.mp he
        exact ⟨nested, nested?_eq_some.mp hn, fun _ => ⟨entries, he⟩⟩
    have hent : t.entered? s = some nested := entered?_eq_some.mpr (.inl hn)
    have habsent : nested.find? (parent ++ [last]) = none := by
      rw [List.cons_append, hr, find?_of_entered? hent, ← hr] at ha
      exact ha
    obtain ⟨hopen, htaken⟩ := ih habsent hparent
    rw [hr] at hopen htaken
    rw [List.cons_append, hr, write_cons_cons, hent]
    refine ⟨by simp [hopen], ?_⟩
    dsimp only
    rw [take?_cons_cons, nested?_insert_table, Option.bind_some, htaken, Option.map_some,
      insert_insert, insert_of_get? hn]

end Table

namespace Settings

open Key

variable {s after : Settings} {key : String} {v : Value}

/-- What a deletion has done, and all that it has done. -/
structure Removed (s : Settings) (key : String) (v : Value) (after : Settings) : Prop where
  found : s.get? key = some v
  gone : after.get? key = none
  above : ∀ above, segments above <+: segments key → above ≠ key → after.HasTable above
  beside : ∀ other, ¬ segments other <+: segments key → ¬ segments key <+: segments other →
    after.get? other = s.get? other
  order : ∀ path, ¬ segments key <+: path →
    after.root.keysAt? path =
      (s.root.keysAt? path).map fun ks => ks.filter fun r => path ++ [r] ≠ segments key

theorem removed_of_delete (h : s.delete key = .ok (v, after)) : s.Removed key v after := by
  have ht := take?_of_delete h
  exact ⟨Table.find?_of_take? ht, Table.find?_take?_self ht,
    fun above hp hne => (hasTable_above_delete h hp hne).2,
    fun other hp hk => Table.find?_take?_of_incomparable ht hp hk,
    fun path hq => Table.keysAt?_take? ht hq⟩

theorem delete_write {parent : List String} {last : String} (hk : segments key = parent ++ [last])
    (hne : "" ∉ segments key) (ha : s.contains key = false)
    (hp : parent ≠ [] → s.HasTable (ofSegments parent)) :
    ∃ mid, s.write key v = (.ok (), mid) ∧ mid.delete key = .ok (v, s) := by
  have habsent : s.root.find? (parent ++ [last]) = none := by
    rw [← hk]
    exact Option.not_isSome_iff_eq_none.mp (Bool.not_eq_true _ ▸ ha)
  have hparent (hn : parent ≠ []) : ∃ entries, s.root.find? parent = some (.table entries) := by
    obtain ⟨entries, he⟩ := hp hn
    have hseg : segments (ofSegments parent) = parent :=
      segments_of_prefix hn ⟨[last], hk.symm⟩
    rw [get?, hseg] at he
    exact ⟨entries, he⟩
  obtain ⟨hopen, htaken⟩ := Table.take?_write (v := v) habsent hparent
  rw [← hk] at hopen htaken
  refine ⟨⟨(s.root.write v (segments key)).2⟩, ?_, ?_⟩
  · rw [write_eq, if_neg hne, hopen]
  · simp only [delete, htaken]

/-- A deletion finds what a look-up finds and takes away that alone, without moving another key; where
there is nothing it fails and changes nothing. A write to a free place of a table that is there is taken
back by a deletion. -/
theorem delete_removed_or_absent (s : Settings) (key : String) :
    ((∃ v after, s.delete key = .ok (v, after)) ↔ s.contains key = true) ∧
    (match s.delete key with
      | .ok (v, after) => s.Removed key v after
      | .error e => e = .keyNotFound key ∧ ∀ p : Progress, p.store = s →
        (Walk.delete key).exec p = (.error (.keyNotFound key), p)) ∧
    ∀ v parent last, segments key = parent ++ [last] → "" ∉ segments key → s.contains key = false →
      (parent ≠ [] → s.HasTable (ofSegments parent)) →
        ∃ mid, s.write key v = (.ok (), mid) ∧ mid.delete key = .ok (v, s) := by
  refine ⟨⟨?_, fun h => ?_⟩, ?_, fun v parent last => delete_write⟩
  · rintro ⟨v, after, h⟩
    exact Option.isSome_iff_exists.mpr ⟨v, (removed_of_delete h).found⟩
  · obtain ⟨v, hv⟩ := Option.isSome_iff_exists.mp h
    exact ⟨v, delete_of_get? hv⟩
  · cases hd : s.delete key with
    | ok r => exact removed_of_delete hd
    | error e =>
      obtain ⟨-, rfl⟩ := delete_eq_error.mp hd
      refine ⟨rfl, fun p hp => ?_⟩
      rw [Walk.exec_delete, hp, hd]

end Settings
end Interview
