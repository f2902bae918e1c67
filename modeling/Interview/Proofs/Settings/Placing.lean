import Interview.Proofs.Settings.Leaves
import Interview.Proofs.Settings.Rebuilding

/-! Ends of paths placed in a table one after another. Leaves and empty tables get along unless a leaf
stands at or above the place of another one; then a table holds them all, and their order is seen in
the order of its keys only. -/

namespace Interview

theorem Value.exists_table_iff {v : Value} {o : Option Value} (h : v.end? = some o) :
    (∃ entries, v = .table entries) ↔ o = none := by
  constructor
  · rintro ⟨entries, rfl⟩
    cases entries with
    | nil => exact (Option.some.inj h).symm
    | cons e es => cases h
  · rintro rfl
    exact ⟨[], Value.end?_eq_some_none.mp h⟩

namespace Table

theorem keys_insert (key : String) (v : Value) (t : Table) {k : String} :
    k ∈ (t.insert key v).map Prod.fst ↔ k = key ∨ k ∈ t.map Prod.fst := by
  induction t with
  | nil => simp [insert]
  | cons e rest ih =>
    obtain ⟨k', w⟩ := e
    by_cases hk : k' = key
    · simp [insert, hk]
    · simp only [insert, if_neg hk, List.map_cons, List.mem_cons, ih]
      tauto

section Tidy

variable {P : String → Prop}

theorem tidy_insert {t : Table} (h : EntriesTidy P t) {key : String} (hk : P key) {v : Value}
    (hv : v.Tidy P) : EntriesTidy P (t.insert key v) := by
  induction t with
  | nil => exact ⟨hk, by simp, hv, trivial⟩
  | cons e rest ih =>
    obtain ⟨k, w⟩ := e
    obtain ⟨hkey, hnew, hw, hr⟩ := h
    by_cases hke : k = key
    · simp only [insert, if_pos hke]
      exact ⟨hkey, hnew, hv, hr⟩
    · simp only [insert, if_neg hke]
      refine ⟨hkey, fun hm => ?_, hw, ih hr⟩
      rcases (keys_insert key v rest).mp hm with he | hm
      · exact hke he
      · exact hnew hm

theorem tidy_of_entered? {t nested : Table} (h : EntriesTidy P t) {key : String}
    (he : t.entered? key = some nested) : EntriesTidy P nested := by
  rcases entered?_eq_some.mp he with hg | ⟨-, rfl⟩
  · exact (tidy_of_get? h hg).2
  · trivial

theorem tidy_write {t : Table} (h : EntriesTidy P t) {path : List String} (hp : ∀ s ∈ path, P s)
    {v : Value} (hv : v.Tidy P) : EntriesTidy P (t.write v path).2 := by
  induction path generalizing t with
  | nil => exact h
  | cons s path ih =>
    have hs : P s := hp s (by simp)
    cases path with
    | nil => exact tidy_insert h hs hv
    | cons r path =>
      rw [write_cons_cons]
      cases he : t.entered? s with
      | none => exact h
      | some nested =>
        have hn := ih (tidy_of_entered? h he) fun r hr => hp r (List.mem_cons_of_mem s hr)
        exact tidy_insert h hs hn

end Tidy

theorem exists_entered?_iff {s : String} {t : Table} :
    (∃ nested, t.entered? s = some nested) ↔ t.leaf? [s] = none := by
  simp only [entered?_eq_some, leaf?, find?]
  cases hg : t.get? s with
  | none => simp
  | some w => cases w <;> simp [Value.isTable]

theorem leaf?_of_entered? {s r : String} {t nested : Table} (h : t.entered? s = some nested)
    (path : List String) : t.leaf? (s :: r :: path) = nested.leaf? (r :: path) := by
  rw [leaf?, find?_of_entered? h, ← leaf?]

theorem open_iff {path : List String} {t : Table} :
    Open path t ↔ ∀ q, q <+: path → q ≠ path → t.leaf? q = none := by
  induction path generalizing t with
  | nil =>
    refine ⟨fun _ q hq hne => absurd (List.prefix_nil.mp hq) hne, fun _ _ => rfl⟩
  | cons s path ih =>
    cases path with
    | nil =>
      refine ⟨fun _ q hq hne => ?_, fun _ => open_singleton s t⟩
      rcases List.prefix_cons_iff.mp hq with rfl | ⟨q', rfl, hq'⟩
      · rfl
      · exact absurd (by rw [List.prefix_nil.mp hq']) hne
    | cons r path =>
      rw [open_cons_cons]
      constructor
      · rintro ⟨nested, he, ho⟩ q hq hne
        rcases List.prefix_cons_iff.mp hq with rfl | ⟨q', rfl, hq'⟩
        · rfl
        · cases q' with
          | nil => exact exists_entered?_iff.mp ⟨nested, he⟩
          | cons r' q =>
            rw [leaf?_of_entered? he]
            exact ih.mp ho (r' :: q) hq' fun heq => hne (by rw [heq])
      · intro h
        obtain ⟨nested, he⟩ := exists_entered?_iff.mpr (h [s] (by simp) (by simp))
        refine ⟨nested, he, ih.mpr fun q hq hne => ?_⟩
        cases q with
        | nil => rfl
        | cons r' q =>
          have hq' := h (s :: r' :: q) (List.cons_prefix_cons.mpr ⟨rfl, hq⟩) (by simpa using hne)
          rwa [leaf?_of_entered? he] at hq'

theorem tidy_of_end? {P : String → Prop} {v : Value} {o : Option Value} (h : v.end? = some o) :
    v.Tidy P := by
  cases v with
  | table entries =>
    cases entries with
    | nil => trivial
    | cons e es => cases h
  | _ => trivial

theorem open_of_write {v : Value} {path : List String} {t : Table} (h : (t.write v path).1 = none) :
    Open path t := by
  induction path generalizing t with
  | nil => exact fun _ => rfl
  | cons s path ih =>
    cases path with
    | nil => exact open_singleton s t
    | cons r path =>
      rw [write_cons_cons] at h
      cases he : t.entered? s with
      | none => simp [he] at h
      | some nested =>
        simp only [he, Option.map_eq_none_iff] at h
        exact open_cons_cons.mpr ⟨nested, he, ih h⟩

theorem table_above_write {path more : List String} {t : Table} {v : Value} (hp : path ≠ [])
    (hm : more ≠ []) (h : Open (path ++ more) t) :
    ∃ entries, (t.write v (path ++ more)).2.find? path = some (.table entries) :=
  table_of_find?_append (find?_write_self (by simp [hp]) (h v)) hp hm

section Write

variable {t : Table} {path : List String} {w : Value} {o : Option Value}

/-- A value that ends its path is one more leaf, or none more if it is a table. -/
theorem leaf?_write_iff (hp : path ≠ []) (h : Free path t) (hw : w.end? = some o) {q : List String}
    {v : Value} :
    (t.write w path).2.leaf? q = some v ↔ (q = path ∧ o = some v) ∨ t.leaf? q = some v := by
  have hself : (t.write w path).2.end? path = some o := by
    rw [end?, find?_write_self hp (h.isOpen w), Option.bind_some, hw]
  by_cases hq : q <+: path
  · by_cases heq : q = path
    · subst q
      rw [leaf?_iff_end?, hself]
      simp [leaf?, h.absent]
    · have ht : t.leaf? q = none := open_iff.mp h.isOpen q hq heq
      have hnew : (t.write w path).2.leaf? q = none := by
        have ho : Open path (t.write w path).2 := fun v => by rw [write_write h.isOpen]
        exact open_iff.mp ho q hq heq
      simp [ht, hnew, heq]
  · by_cases hq' : path <+: q
    · obtain ⟨more, rfl⟩ := hq'
      have hm : more ≠ [] := by
        rintro rfl
        exact hq (by simp)
      have hnew : (t.write w path).2.leaf? (path ++ more) = none := by
        rw [leaf?, find?_append_of_end hself hm]
        rfl
      have hold : t.leaf? (path ++ more) = none := by
        cases hl : t.leaf? (path ++ more) with
        | none => rfl
        | some u =>
          obtain ⟨es, he⟩ := table_of_find?_append (leaf?_eq_some.mp hl).1 hp hm
          rw [h.absent] at he
          cases he
      simp [hold, hnew, hm]
    · have hne : q ≠ path := fun heq => hq (by rw [heq])
      rw [leaf?, find?_write_of_incomparable hq hq', ← leaf?]
      simp [hne]

theorem leaf?_write_of_ne {v : Value} (ho : Open path t)
    (ht : ∀ entries, t.find? path ≠ some (.table entries)) (hv : v.isTable = false)
    {q : List String} (hne : q ≠ path) : (t.write v path).2.leaf? q = t.leaf? q := by
  by_cases hp : path = []
  · subst hp
    rfl
  have hbelow (u : Table) (hu : ∀ entries, u.find? path ≠ some (.table entries))
      {more : List String} (hm : more ≠ []) : u.leaf? (path ++ more) = none := by
    cases hl : u.leaf? (path ++ more) with
    | none => rfl
    | some w =>
      obtain ⟨entries, he⟩ := table_of_find?_append (leaf?_eq_some.mp hl).1 hp hm
      exact absurd he (hu entries)
  by_cases hq : q <+: path
  · have hnew : Open path (t.write v path).2 := fun v => by rw [write_write ho]
    rw [open_iff.mp ho q hq hne, open_iff.mp hnew q hq hne]
  · by_cases hq' : path <+: q
    · obtain ⟨more, rfl⟩ := hq'
      have hm : more ≠ [] := by
        rintro rfl
        exact hq (by simp)
      have hself : ∀ entries, (t.write v path).2.find? path ≠ some (.table entries) := by
        intro entries he
        rw [find?_write_self hp (ho v)] at he
        cases he
        cases hv
      rw [hbelow t ht hm, hbelow _ hself hm]
    · rw [leaf?, find?_write_of_incomparable hq hq', ← leaf?]

theorem table_write_iff (hp : path ≠ []) (h : Free path t) (hw : w.end? = some o) {q : List String} :
    (∃ entries, (t.write w path).2.find? q = some (.table entries)) ↔
      (q ≠ [] ∧ q <+: path ∧ (q = path → o = none)) ∨
        ∃ entries, t.find? q = some (.table entries) := by
  have hself : (t.write w path).2.find? path = some w := find?_write_self hp (h.isOpen w)
  by_cases hn : q = []
  · subst q
    simp [find?]
  by_cases hq : q <+: path
  · by_cases heq : q = path
    · subst q
      simp [hself, h.absent, hn, Value.exists_table_iff hw]
    · obtain ⟨more, rfl⟩ := hq
      have hm : more ≠ [] := by
        rintro rfl
        exact heq (by simp)
      have habove := table_above_write (v := w) hn hm h.isOpen
      simp [habove, hn, heq]
  · by_cases hq' : path <+: q
    · obtain ⟨more, rfl⟩ := hq'
      have hm : more ≠ [] := by
        rintro rfl
        exact hq (by simp)
      have hend : (t.write w path).2.end? path = some o := by
        rw [end?, hself, Option.bind_some, hw]
      have hold : ¬ ∃ entries, t.find? (path ++ more) = some (.table entries) := by
        rintro ⟨entries, he⟩
        obtain ⟨es, he⟩ := table_of_find?_append he hp hm
        rw [h.absent] at he
        cases he
      simp [find?_append_of_end hend hm, hold, hq]
    · rw [find?_write_of_incomparable hq hq']
      simp [hq]

end Write

def put? (v : Value) (path : List String) (t : Table) : Option Table :=
  if path.any String.isEmpty then none
  else
    match t.write v path with
    | (none, t) => some t
    | (some _, _) => none

theorem put?_eq_some {v : Value} {path : List String} {t t' : Table} :
    t.put? v path = some t' ↔
      (∀ s ∈ path, s ≠ "") ∧ Open path t ∧ t' = (t.write v path).2 := by
  have hany : path.any String.isEmpty = false ↔ ∀ s ∈ path, s ≠ "" := by simp
  unfold put?
  cases he : path.any String.isEmpty with
  | true =>
    have hne : ¬ ∀ s ∈ path, s ≠ "" := fun hall => by simp [hany.mpr hall] at he
    simp [hne]
  | false =>
    have hall := hany.mp he
    cases hw : t.write v path with
    | mk blocked after =>
      cases blocked with
      | none =>
        have ho : Open path t := open_of_write (congrArg Prod.fst hw)
        simp only [Bool.false_eq_true, if_false, Option.some.injEq]
        exact ⟨fun ht => ⟨hall, ho, ht.symm⟩, fun ht => ht.2.2.symm⟩
      | some blocked =>
        have ho : ¬ Open path t := fun ho => by
          have hnone := ho v
          rw [hw] at hnone
          cases hnone
        simp [ho]

/-- Puts a leaf, or an empty table where the value is missing, in its place. A table does for an empty
one, and nothing may be written over. -/
def place? (t : Table) : List String × Option Value → Option Table
  | (path, o) =>
    match t.find? path, o with
    | some (.table _), none => some t
    | some _, _ => none
    | none, o => t.put? (o.getD (.table [])) path

def placeAll? : List (List String × Option Value) → Table → Option Table
  | [], t => some t
  | e :: rest, t => (t.place? e).bind (placeAll? rest)

theorem placeAll?_append (xs ys : List (List String × Option Value)) (t : Table) :
    placeAll? (xs ++ ys) t = (placeAll? xs t).bind (placeAll? ys) := by
  induction xs generalizing t with
  | nil => rfl
  | cons e rest ih =>
    simp only [List.cons_append, placeAll?, Option.bind_assoc]
    exact congrArg _ (funext ih)

theorem place?_of_absent {t : Table} {path : List String} {o : Option Value}
    (h : t.find? path = none) : t.place? (path, o) = t.put? (o.getD (.table [])) path := by
  simp only [place?, h]

theorem place?_of_table {t entries : Table} {path : List String} {o : Option Value}
    (h : t.find? path = some (.table entries)) :
    t.place? (path, o) = if o.isNone then some t else none := by
  cases o <;> simp [place?, h]

theorem place?_of_leaf {t : Table} {path : List String} {o : Option Value} {v : Value}
    (h : t.leaf? path = some v) : t.place? (path, o) = none := by
  obtain ⟨hf, hv⟩ := leaf?_eq_some.mp h
  cases v with
  | table entries => cases hv
  | _ => simp [place?, hf]

end Table

/-- Two ends that can stand in one table: no leaf is at or above the place of the other. -/
structure Compatible (d e : List String × Option Value) : Prop where
  above : d.2 ≠ none → ¬ d.1 <+: e.1
  below : e.2 ≠ none → ¬ e.1 <+: d.1

theorem Compatible.symm {d e : List String × Option Value} (h : Compatible d e) : Compatible e d :=
  ⟨h.below, h.above⟩

structure IsEnd (e : List String × Option Value) : Prop where
  ne_nil : e.1 ≠ []
  noDot : ∀ s ∈ e.1, '.' ∉ s.toList
  ends : (e.2.getD (.table [])).end? = some e.2

/-- The table has these ends and nothing else. -/
structure Holds (t : Table) (ends : List (List String × Option Value)) : Prop where
  tidy : EntriesTidy Key.Plain t
  leaf : ∀ q v, t.leaf? q = some v ↔ (q, some v) ∈ ends
  table : ∀ q, (∃ entries, t.find? q = some (.table entries)) ↔
    q ≠ [] ∧ ∃ e ∈ ends, q <+: e.1 ∧ (q = e.1 → e.2 = none)

theorem holds_nil : Holds [] [] where
  tidy := trivial
  leaf q v := by simp [Table.leaf?, Table.find?_nil_table]
  table q := by simp [Table.find?_nil_table]

section Place

variable {t : Table} {ends : List (List String × Option Value)} {e : List String × Option Value}

theorem Holds.exists_leaf (h : Holds t ends) (he : e ∈ ends) (hv : e.2 ≠ none) :
    ∃ v, t.leaf? e.1 = some v := by
  obtain ⟨v, hv⟩ := Option.ne_none_iff_exists'.mp hv
  have hm : (e.1, some v) ∈ ends := by
    rw [← hv]
    exact he
  exact ⟨v, (h.leaf e.1 v).mpr hm⟩

theorem Holds.not_prefix_of_absent (h : Holds t ends) {path : List String} (hn : path ≠ [])
    (hf : t.find? path = none) (he : e ∈ ends) : ¬ path <+: e.1 := by
  intro hpre
  by_cases hpath : path = e.1 ∧ e.2 ≠ none
  · obtain ⟨v, hl⟩ := h.exists_leaf he hpath.2
    rw [← hpath.1, Table.leaf?, hf] at hl
    cases hl
  · have hout : path = e.1 → e.2 = none := fun heq => not_not.mp fun hne => hpath ⟨heq, hne⟩
    obtain ⟨es, htable⟩ := (h.table path).mpr ⟨hn, e, he, hpre, hout⟩
    rw [hf] at htable
    cases htable

/-- No leaf is in the way of a path that leads nowhere yet exactly if all ends get along with it. -/
theorem Holds.open_iff (h : Holds t ends) {path : List String} (hn : path ≠ [])
    (hf : t.find? path = none) (o : Option Value) :
    Table.Open path t ↔ ∀ d ∈ ends, Compatible d (path, o) := by
  rw [Table.open_iff]
  constructor
  · intro ho d hd
    have hbelow := h.not_prefix_of_absent hn hf hd
    refine ⟨fun hv hpre => ?_, fun _ => hbelow⟩
    obtain ⟨v, hl⟩ := h.exists_leaf hd hv
    by_cases heq : d.1 = path
    · exact hbelow (by rw [heq])
    · rw [ho d.1 hpre heq] at hl
      cases hl
  · intro hall q hpre hne
    cases hl : t.leaf? q with
    | none => rfl
    | some v => exact absurd hpre ((hall (q, some v) ((h.leaf q v).mp hl)).above (by simp))

theorem Holds.write (h : Holds t ends) (he : IsEnd e) (hne : ∀ s ∈ e.1, s ≠ "")
    (hfree : t.Free e.1) : Holds (t.write (e.2.getD (.table [])) e.1).2 (ends ++ [e]) := by
  obtain ⟨path, o⟩ := e
  obtain ⟨hn, hdot, hend⟩ := he
  have hplain : ∀ s ∈ path, Key.Plain s := fun s hs => ⟨hne s hs, hdot s hs⟩
  refine ⟨Table.tidy_write h.tidy hplain (Table.tidy_of_end? hend), fun q v => ?_, fun q => ?_⟩
  · rw [Table.leaf?_write_iff hn hfree hend, h.leaf, List.mem_append, List.mem_singleton,
      Prod.mk.injEq, or_comm, eq_comm (a := o)]
  · rw [Table.table_write_iff hn hfree hend, h.table]
    constructor
    · rintro (⟨hq, hpre, hout⟩ | ⟨hq, e, he, hpre, hout⟩)
      · exact ⟨hq, (path, o), by simp, hpre, hout⟩
      · exact ⟨hq, e, by simp [he], hpre, hout⟩
    · rintro ⟨hq, e, he, hpre, hout⟩
      rcases List.mem_append.mp he with he | he
      · exact .inr ⟨hq, e, he, hpre, hout⟩
      · obtain rfl := List.mem_singleton.mp he
        exact .inl ⟨hq, hpre, hout⟩

theorem Holds.table_again (h : Holds t ends) {path : List String} {entries : Table}
    (hf : t.find? path = some (.table entries)) : Holds t (ends ++ [(path, none)]) := by
  refine ⟨h.tidy, fun q v => by simp [h.leaf], fun q => ?_⟩
  constructor
  · intro hq
    obtain ⟨hqn, e, he, hpre, hout⟩ := (h.table q).mp hq
    exact ⟨hqn, e, by simp [he], hpre, hout⟩
  · rintro ⟨hqn, e, he, hpre, hout⟩
    rcases List.mem_append.mp he with he | he
    · exact (h.table q).mpr ⟨hqn, e, he, hpre, hout⟩
    · obtain rfl := List.mem_singleton.mp he
      obtain ⟨more, rfl⟩ := hpre
      by_cases hm : more = []
      · exact ⟨entries, by simpa [hm] using hf⟩
      · exact Table.table_of_find?_append hf hqn hm

theorem Holds.place (h : Holds t ends) (he : IsEnd e) {t' : Table} (hp : t.place? e = some t') :
    Holds t' (ends ++ [e]) := by
  obtain ⟨path, o⟩ := e
  cases hf : t.find? path with
  | none =>
    rw [Table.place?_of_absent hf] at hp
    obtain ⟨hne, ho, rfl⟩ := Table.put?_eq_some.mp hp
    exact h.write he hne ⟨hf, ho⟩
  | some w =>
    cases hl : w.isTable with
    | false =>
      rw [Table.place?_of_leaf (Table.leaf?_eq_some.mpr ⟨hf, hl⟩)] at hp
      cases hp
    | true =>
      obtain ⟨entries, rfl⟩ := Value.eq_table hl
      rw [Table.place?_of_table hf] at hp
      cases o with
      | some v => cases hp
      | none =>
        obtain rfl := Option.some.inj hp
        exact h.table_again hf

/-- An end fits exactly if its keys are not empty and it gets along with all that is there. -/
theorem Holds.place_isSome (h : Holds t ends) (he : IsEnd e) :
    (t.place? e).isSome ↔ (∀ s ∈ e.1, s ≠ "") ∧ ∀ d ∈ ends, Compatible d e := by
  obtain ⟨path, o⟩ := e
  have hn : path ≠ [] := he.ne_nil
  cases hf : t.find? path with
  | none =>
    rw [Table.place?_of_absent hf, Option.isSome_iff_exists, ← h.open_iff hn hf o]
    simp only [Table.put?_eq_some, exists_and_left, exists_eq, and_true]
  | some w =>
    cases hl : w.isTable with
    | false =>
      have hleaf := Table.leaf?_eq_some.mpr ⟨hf, hl⟩
      have hbad : ¬ ∀ d ∈ ends, Compatible d (path, o) := fun hall =>
        (hall (path, some w) ((h.leaf path w).mp hleaf)).above (by simp) (List.prefix_refl path)
      rw [Table.place?_of_leaf hleaf]
      exact iff_of_false (by simp) fun hall => hbad hall.2
    | true =>
      obtain ⟨entries, rfl⟩ := Value.eq_table hl
      have hne : ∀ s ∈ path, s ≠ "" := fun s hs => ((Table.names_of_find? h.tidy hf).2 s hs).1
      rw [Table.place?_of_table hf]
      cases o with
      | some v =>
        obtain ⟨-, d, hd, hpre, -⟩ := (h.table path).mp ⟨entries, hf⟩
        have hbad : ¬ ∀ d ∈ ends, Compatible d (path, some v) := fun hall =>
          (hall d hd).below (by simp) hpre
        exact iff_of_false (by simp) fun hall => hbad hall.2
      | none =>
        refine iff_of_true rfl ⟨hne, fun d hd => ⟨fun hv hpre => ?_, fun hv => absurd rfl hv⟩⟩
        obtain ⟨v, hl⟩ := h.exists_leaf hd hv
        have heq := Table.eq_of_prefix_of_leaf hl hf hpre
        rw [heq, Table.leaf?, hf] at hl
        cases hl

theorem Holds.placeAll (h : Holds t ends) {todo : List (List String × Option Value)}
    (ht : ∀ e ∈ todo, IsEnd e) {t' : Table} (hp : Table.placeAll? todo t = some t') :
    Holds t' (ends ++ todo) := by
  induction todo generalizing t ends with
  | nil =>
    obtain rfl := Option.some.inj hp
    simpa using h
  | cons e rest ih =>
    obtain ⟨next, he, hr⟩ := Option.bind_eq_some_iff.mp hp
    have hnext := h.place (ht e (by simp)) he
    simpa using ih hnext (fun e he => ht e (List.mem_cons_of_mem _ he)) hr

/-- Ends that get along can all be placed, one after another, and no others. -/
theorem Holds.placeAll_isSome (h : Holds t ends) {todo : List (List String × Option Value)}
    (ht : ∀ e ∈ todo, IsEnd e) :
    (Table.placeAll? todo t).isSome ↔ (∀ e ∈ todo, ∀ s ∈ e.1, s ≠ "") ∧
      (∀ d ∈ ends, ∀ e ∈ todo, Compatible d e) ∧ todo.Pairwise Compatible := by
  induction todo generalizing t ends with
  | nil => simp [Table.placeAll?]
  | cons e rest ih =>
    have he := ht e (by simp)
    have hfits := h.place_isSome he
    rw [Table.placeAll?, List.pairwise_cons]
    cases hp : t.place? e with
    | none =>
      rw [hp] at hfits
      refine iff_of_false (by simp) fun ⟨hne, hd, _⟩ => ?_
      exact absurd (hfits.mpr ⟨hne e (by simp), fun d hde => hd d hde e (by simp)⟩) (by simp)
    | some next =>
      rw [hp] at hfits
      obtain ⟨hne, hde⟩ := hfits.mp rfl
      rw [Option.bind_some, ih (h.place he hp) fun e he => ht e (List.mem_cons_of_mem _ he)]
      constructor
      · rintro ⟨hall, hd, hpair⟩
        refine ⟨?_, ?_, ?_, hpair⟩
        · exact List.forall_mem_cons.mpr ⟨hne, hall⟩
        · intro d hdm e' he'
          rcases List.mem_cons.mp he' with rfl | he'
          · exact hde d hdm
          · exact hd d (by simp [hdm]) e' he'
        · exact fun e' he' => hd e (by simp) e' he'
      · rintro ⟨hall, hd, hfirst, hpair⟩
        refine ⟨fun e' he' => hall e' (List.mem_cons_of_mem _ he'), ?_, hpair⟩
        intro d hdm e' he'
        rcases List.mem_append.mp hdm with hdm | hdm
        · exact hd d hdm e' (List.mem_cons_of_mem _ he')
        · rw [List.mem_singleton.mp hdm]
          exact hfirst e' he'

end Place

end Interview
