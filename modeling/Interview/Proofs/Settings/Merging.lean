import Interview.Proofs.Settings.Placing
import Mathlib.Data.List.Pairwise

/-! Stores built from dotted entries. Merging an entry is placing the ends of its paths one by one, each
cut at its dots; so a store is built exactly if all ends of the entries get along, in any order. -/

namespace Interview

namespace Table

theorem place?_below_leaf {t : Table} {path more : List String} {v : Value}
    (h : t.leaf? path = some v) (hm : more ≠ []) (o : Option Value) :
    t.place? (path ++ more, o) = none := by
  have hf := find?_append_of_end (leaf?_iff_end?.mp h) hm
  cases hp : t.place? (path ++ more, o) with
  | none => rfl
  | some t' =>
    rw [place?_of_absent hf] at hp
    obtain ⟨-, ho, -⟩ := put?_eq_some.mp hp
    have hnone := open_iff.mp ho path (List.prefix_append path more) (by simpa using hm)
    rw [h] at hnone
    cases hnone

end Table

/-- The end of a path, its keys cut at their dots. -/
def dotted (e : List String × Option Value) : List String × Option Value :=
  (e.1.flatMap Key.segments, e.2)

/-- The ends of the paths through a table whose keys may be dotted. -/
def Table.dottedEnds (t : Table) : List (List String × Option Value) := (entryEnds [] t).map dotted

namespace Settings

theorem toOption_bind {α β : Type} (x : Except Error α) (f : α → Except Error β) :
    (x >>= f).toOption = x.toOption.bind fun a => (f a).toOption := by
  cases x <;> rfl

theorem toOption_set (t : Table) (key : String) (v : Value) :
    (set ⟨t⟩ key v).toOption = (t.put? v (Key.segments key)).map Settings.mk := by
  cases he : (Key.segments key).any String.isEmpty with
  | true =>
    simp only [set, write, Table.put?, he, if_true]
    rfl
  | false =>
    simp only [set, write, Table.put?, he, Bool.false_eq_true, if_false]
    cases t.write v (Key.segments key) with
    | mk blocked after => cases blocked <;> rfl

theorem merge_end {t : Table} {key : String} {v : Value} {o : Option Value} (h : v.end? = some o) :
    (merge ⟨t⟩ key v).toOption = (t.place? (Key.segments key, o)).map Settings.mk := by
  have hget : get? ⟨t⟩ key = t.find? (Key.segments key) := rfl
  cases o with
  | some w =>
    obtain ⟨rfl, hv⟩ := Value.end?_eq_some_some.mp h
    rw [merge_leaf hv, contains, hget]
    cases hf : t.find? (Key.segments key) with
    | none =>
      rw [Table.place?_of_absent hf]
      exact toOption_set t key v
    | some u =>
      have hp : t.place? (Key.segments key, some v) = none := by
        cases u <;> simp [Table.place?, hf]
      rw [hp]
      rfl
  | none =>
    obtain rfl := Value.end?_eq_some_none.mp h
    rw [merge, hget]
    cases hf : t.find? (Key.segments key) with
    | none =>
      rw [Table.place?_of_absent hf]
      exact toOption_set t key (.table [])
    | some u => cases u <;> simp [Table.place?, hf, Except.toOption]

theorem placeAll?_below_leaf {t : Table} {path : List String} {key : String} {u : Value}
    (h : t.leaf? (Key.segments key) = some u) (hk : Key.segments key = path.flatMap Key.segments)
    {entries : Table} (hne : entries ≠ []) :
    Table.placeAll? ((entryEnds path entries).map dotted) t = none := by
  obtain ⟨⟨k, v⟩, rest, rfl⟩ := List.exists_cons_of_ne_nil hne
  obtain ⟨e, more, he⟩ := List.exists_cons_of_ne_nil (v.ends_ne_nil (path ++ [k]))
  have hm : (e.1, e.2) ∈ entryEnds path ((k, v) :: rest) := by
    rw [entryEnds, he]
    simp
  obtain ⟨k', -, tail, ht⟩ := prefix_of_mem_entryEnds hm
  have hpath : e.1.flatMap Key.segments =
      Key.segments key ++ (Key.segments k' ++ tail.flatMap Key.segments) := by
    rw [← ht, hk]
    simp
  have hnil : Key.segments k' ++ tail.flatMap Key.segments ≠ [] := by
    simp [Key.segments_ne_nil]
  rw [entryEnds, he, List.cons_append, List.map_cons, Table.placeAll?, dotted, hpath,
    Table.place?_below_leaf h hnil, Option.bind_none]

mutual

theorem merge_eq {t : Table} {path : List String} {key : String} (v : Value)
    (hk : Key.segments key = path.flatMap Key.segments) :
    (merge ⟨t⟩ key v).toOption =
      (Table.placeAll? ((v.ends path).map dotted) t).map Settings.mk := by
  cases hl : v.end? with
  | some o =>
    rw [merge_end hl, Value.ends_of_end? hl, hk, List.map_singleton, Table.placeAll?]
    exact congrArg _ (Option.bind_fun_some _).symm
  | none =>
    obtain ⟨e, es, rfl⟩ := Value.eq_table_of_end? hl
    have hget : get? ⟨t⟩ key = t.find? (Key.segments key) := rfl
    have hentries := mergeEntries_eq (t := t) (e :: es) hk
    rw [merge, hget, Value.ends]
    cases hf : t.find? (Key.segments key) with
    | none => exact hentries
    | some u =>
      cases hu : u.isTable with
      | true =>
        obtain ⟨nested, rfl⟩ := Value.eq_table hu
        exact hentries
      | false =>
        -- A table that meets a leaf is refused as a whole, and the first of its ends is too.
        have hleaf := Table.leaf?_eq_some.mpr ⟨hf, hu⟩
        rw [placeAll?_below_leaf hleaf hk (List.cons_ne_nil e es)]
        cases u with
        | table nested => cases hu
        | _ => rfl
termination_by sizeOf v

theorem mergeEntries_eq {t : Table} {path : List String} {key : String}
    (entries : List (String × Value)) (hk : Key.segments key = path.flatMap Key.segments) :
    (mergeEntries ⟨t⟩ key entries).toOption =
      (Table.placeAll? ((entryEnds path entries).map dotted) t).map Settings.mk := by
  match entries with
  | [] => rfl
  | (k, v) :: rest =>
    have hkey : Key.segments (key ++ "." ++ k) = (path ++ [k]).flatMap Key.segments := by
      rw [Key.segments_append, hk]
      simp
    have hfirst := merge_eq (t := t) v hkey
    rw [mergeEntries, toOption_bind, hfirst, entryEnds, List.map_append, Table.placeAll?_append,
      Option.bind_map, Option.map_bind]
    exact congrArg _ (funext fun next => mergeEntries_eq rest hk)
termination_by sizeOf entries

end

theorem ofDotted_eq (t : Table) :
    (ofDotted t).toOption = (Table.placeAll? t.dottedEnds []).map Settings.mk := by
  have hall (done : Table) : (t.foldlM (fun s e => merge s e.1 e.2) (⟨done⟩ : Settings)).toOption =
      (Table.placeAll? t.dottedEnds done).map Settings.mk := by
    induction t generalizing done with
    | nil => rfl
    | cons e rest ih =>
      obtain ⟨k, v⟩ := e
      have hkey : Key.segments k = ([] ++ [k]).flatMap Key.segments := by simp
      have hfirst := merge_eq (t := done) v hkey
      rw [List.foldlM_cons, toOption_bind, hfirst, Table.dottedEnds, entryEnds, List.map_append,
        Table.placeAll?_append, Option.bind_map, Option.map_bind]
      exact congrArg _ (funext fun next => ih next)
  exact hall []

theorem isEnd_of_mem_dottedEnds {t : Table} {e : List String × Option Value}
    (h : e ∈ t.dottedEnds) : IsEnd e := by
  obtain ⟨⟨q, o⟩, hm, rfl⟩ := List.mem_map.mp h
  refine ⟨?_, fun s hs => ?_, Value.end?_of_mem_entryEnds hm⟩
  · obtain ⟨k, -, tail, rfl⟩ := prefix_of_mem_entryEnds hm
    simp [dotted, Key.segments_ne_nil]
  · obtain ⟨key, -, hs⟩ := List.mem_flatMap.mp hs
    exact Key.noDot_of_mem_segments hs

/-- A store is built from dotted entries exactly if no key on the way is empty and all ends of their
paths get along. -/
theorem ofDotted_isSome {t : Table} :
    (ofDotted t).toOption.isSome ↔
      (∀ e ∈ t.dottedEnds, ∀ s ∈ e.1, s ≠ "") ∧ t.dottedEnds.Pairwise Compatible := by
  rw [ofDotted_eq, Option.isSome_map, holds_nil.placeAll_isSome fun e he => isEnd_of_mem_dottedEnds he]
  simp

theorem holds_ofDotted {t : Table} {s : Settings} (h : ofDotted t = .ok s) :
    Holds s.root t.dottedEnds := by
  have heq := ofDotted_eq t
  rw [h] at heq
  obtain ⟨root, hr, rfl⟩ := Option.map_eq_some_iff.mp heq.symm
  exact holds_nil.placeAll (fun e he => isEnd_of_mem_dottedEnds he) hr

end Settings

theorem Table.pairwise_dottedEnds {P : String → Prop} {t : Table} (h : EntriesTidy P t) :
    t.dottedEnds.Pairwise Compatible ↔
      ∀ a ∈ entryEnds [] t, ∀ b ∈ entryEnds [] t, a.1 ≠ b.1 → Compatible (dotted a) (dotted b) := by
  have hn := nodup_entryEnds h []
  rw [List.Nodup, List.pairwise_map] at hn
  rw [dottedEnds, List.pairwise_map]
  constructor
  · intro hp a ha b hb hne
    have : Std.Symm fun a b => Compatible (dotted a) (dotted b) := ⟨fun _ _ hab => hab.symm⟩
    exact hp.forall ha hb fun heq => hne (by rw [heq])
  · intro hall
    exact hn.imp_of_mem fun ha hb hne => hall _ ha _ hb hne

theorem Table.mem_dottedEnds {P : String → Prop} {t : Table} (h : EntriesTidy P t)
    {path : List String} {v : Value} :
    (path, some v) ∈ t.dottedEnds ↔ ∃ q, t.leaf? q = some v ∧ q.flatMap Key.segments = path := by
  rw [dottedEnds, List.mem_map]
  constructor
  · rintro ⟨⟨q, o⟩, hm, he⟩
    obtain ⟨hq, rfl⟩ := Prod.mk.inj he
    obtain ⟨_, rfl, hend⟩ := (mem_entryEnds h).mp hm
    exact ⟨q, leaf?_iff_end?.mpr hend, hq⟩
  · rintro ⟨q, hl, rfl⟩
    exact ⟨(q, some v), (mem_entryEnds h).mpr ⟨q, rfl, leaf?_iff_end?.mp hl⟩, rfl⟩

theorem tidy_of_ends {P Q : String → Prop} {entries : List (String × Value)}
    (h : EntriesTidy Q entries) {path : List String}
    (hall : ∀ e ∈ entryEnds path entries, ∀ s ∈ e.1, P s) : EntriesTidy P entries := by
  match entries with
  | [] => trivial
  | (k, v) :: rest =>
    obtain ⟨-, hnew, hv, hr⟩ := h
    have hafter : ∀ e ∈ entryEnds path rest, ∀ s ∈ e.1, P s :=
      fun e he => hall e (by simp [entryEnds, he])
    have hhere : ∀ e ∈ v.ends (path ++ [k]), ∀ s ∈ e.1, P s :=
      fun e he => hall e (by simp [entryEnds, he])
    have hk : P k := by
      obtain ⟨e, more, he⟩ := List.exists_cons_of_ne_nil (v.ends_ne_nil (path ++ [k]))
      have hm : e ∈ v.ends (path ++ [k]) := by simp [he]
      exact hhere e hm k ((prefix_of_mem_ends hm).subset (by simp))
    refine ⟨hk, hnew, ?_, tidy_of_ends hr hafter⟩
    cases hl : v.end? with
    | some o => exact Table.tidy_of_end? hl
    | none =>
      obtain ⟨e, es, rfl⟩ := Value.eq_table_of_end? hl
      exact tidy_of_ends hv hhere
termination_by sizeOf entries

end Interview
