import Interview.Raw

/-! Data in canonical form have no key twice, at any depth: an entry is put where sorting places its key,
which keeps the keys in ascending order. -/

namespace Interview.Raw

inductive Distinct : Raw → Prop
  | null : Distinct .null
  | bool (b : Bool) : Distinct (.bool b)
  | int (n : Int) : Distinct (.int n)
  | float (x : Number.Binary64) : Distinct (.float x)
  | str (s : String) : Distinct (.str s)
  | list {items : List Raw} (h : ∀ r ∈ items, Distinct r) : Distinct (.list items)
  | object {entries : List (String × Raw)} (hk : (entries.map Prod.fst).Nodup)
      (h : ∀ e ∈ entries, Distinct e.2) : Distinct (.object entries)

def Ascending (entries : List (String × Raw)) : Prop := entries.Pairwise fun e e' => e.1 < e'.1

variable {key : String} {v : Raw} {entries done : List (String × Raw)}

theorem Ascending.nodup (h : Ascending entries) : (entries.map Prod.fst).Nodup :=
  List.pairwise_map.mpr (h.imp String.ne_of_lt)

theorem mem_insertSorted {e : String × Raw} (h : e ∈ insertSorted key v entries) :
    e = (key, v) ∨ e ∈ entries := by
  induction entries with
  | nil => exact .inl (List.mem_singleton.mp h)
  | cons entry rest ih =>
    unfold insertSorted at h
    split at h
    · next hk =>
      rcases List.mem_cons.mp h with rfl | h
      · exact .inl (by rw [hk])
      · exact .inr (List.mem_cons_of_mem _ h)
    · split at h
      · exact List.mem_cons.mp h
      · rcases List.mem_cons.mp h with rfl | h
        · exact .inr List.mem_cons_self
        · exact (ih h).imp_right (List.mem_cons_of_mem _)

theorem Ascending.insertSorted (h : Ascending entries) (key : String) (v : Raw) :
    Ascending (insertSorted key v entries) := by
  induction entries with
  | nil => exact List.pairwise_singleton _ _
  | cons entry rest ih =>
    obtain ⟨hfirst, hrest⟩ := List.pairwise_cons.mp h
    unfold Raw.insertSorted
    split
    · exact List.pairwise_cons.mpr ⟨hfirst, hrest⟩
    · next hne =>
      split
      · next hlt =>
        refine List.pairwise_cons.mpr ⟨fun e he => ?_, h⟩
        rcases List.mem_cons.mp he with rfl | he
        · exact hlt
        · exact String.lt_trans hlt (hfirst e he)
      · next hnlt =>
        refine List.pairwise_cons.mpr ⟨fun e he => ?_, ih hrest⟩
        rcases mem_insertSorted he with rfl | he
        · exact String.not_le.mp fun hle => hne (String.le_antisymm hle (String.not_lt.mp hnlt))
        · exact hfirst e he

mutual

theorem distinct_canonical : (r : Raw) → r.canonical.Distinct
  | .null => .null
  | .bool b => .bool b
  | .int n => .int n
  | .float x => by
    unfold canonical
    split
    · exact .null
    · exact .float x
  | .str s => .str s
  | .list items => .list (distinct_canonicalItems items)
  | .object entries =>
    have h := distinct_canonicalEntries entries [] .nil fun _ he => nomatch he
    .object h.1.nodup h.2

theorem distinct_canonicalItems : (items : List Raw) → ∀ r ∈ canonicalItems items, r.Distinct
  | [] => fun _ hr => nomatch hr
  | first :: rest => fun r hr =>
    match List.mem_cons.mp hr with
    | .inl h => h ▸ distinct_canonical first
    | .inr h => distinct_canonicalItems rest r h

theorem distinct_canonicalEntries : (entries done : List (String × Raw)) → Ascending done →
    (∀ e ∈ done, e.2.Distinct) →
    Ascending (canonicalEntries entries done) ∧ ∀ e ∈ canonicalEntries entries done, e.2.Distinct
  | [], _, ha, hd => ⟨ha, hd⟩
  | (k, r) :: rest, _, ha, hd =>
    distinct_canonicalEntries rest _ (ha.insertSorted k r.canonical) fun e he =>
      match mem_insertSorted he with
      | .inl h => h ▸ distinct_canonical r
      | .inr h => hd e h

end

theorem mem_of_lookup? (h : lookup? key entries = some v) : (key, v) ∈ entries := by
  induction entries with
  | nil => cases h
  | cons entry rest ih =>
    obtain ⟨k, r⟩ := entry
    rw [lookup?] at h
    split at h
    · next hk =>
      obtain rfl : r = v := Option.some.inj h
      exact hk ▸ List.mem_cons_self
    · exact List.mem_cons_of_mem _ (ih h)

theorem lookup?_isSome : (lookup? key entries).isSome ↔ key ∈ entries.map Prod.fst := by
  induction entries with
  | nil => simp [lookup?]
  | cons entry rest ih =>
    obtain ⟨k, r⟩ := entry
    rw [lookup?]
    split
    · next hk => simp [hk]
    · next hk => simp [ih, Ne.symm hk]

end Interview.Raw
