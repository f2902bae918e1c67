import Interview.Proofs.Outcome
import Interview.Proofs.Settings.Paths
import Interview.Settings.Dotted

/-! Stores built again from their own table. Without empty or dotted keys every entry goes to a place
that is still free, and the tables grow back entry by entry in their order. -/

namespace Interview

namespace Table

theorem insert_insert (key : String) (v w : Value) (t : Table) :
    (t.insert key v).insert key w = t.insert key w := by
  induction t with
  | nil => simp [insert]
  | cons e rest ih =>
    obtain ⟨k, u⟩ := e
    by_cases hk : k = key
    · simp [insert, hk]
    · simp [insert, hk, ih]

theorem insert_of_not_mem {key : String} {t : Table} (h : key ∉ t.map Prod.fst) (v : Value) :
    t.insert key v = t ++ [(key, v)] := by
  induction t with
  | nil => rfl
  | cons e rest ih =>
    obtain ⟨k, u⟩ := e
    have hk : k ≠ key := fun hk => h (by simp [hk])
    simp [insert, hk, ih fun hm => h (List.mem_cons_of_mem _ hm)]

theorem get?_eq_none {key : String} {t : Table} (h : key ∉ t.map Prod.fst) : t.get? key = none := by
  cases hg : t.get? key with
  | none => rfl
  | some v => exact absurd (mem_keys_of_get? hg) h

theorem entered?_insert_table (key : String) (nested t : Table) :
    entered? key (t.insert key (.table nested)) = some nested := by
  simp [entered?]

/-- No leaf is in the way of a path. -/
def Open (path : List String) (t : Table) : Prop := ∀ v, (t.write v path).1 = none

theorem open_singleton (key : String) (t : Table) : Open [key] t := fun _ => rfl

theorem open_cons_cons {s r : String} {path : List String} {t : Table} :
    Open (s :: r :: path) t ↔ ∃ nested, t.entered? s = some nested ∧ Open (r :: path) nested := by
  unfold Open
  cases he : t.entered? s with
  | none => simp [write_cons_cons, he]
  | some nested => simp [write_cons_cons, he]

theorem write_write {path : List String} {t : Table} (h : Open path t) (v w : Value) :
    (t.write v path).2.write w path = (none, (t.write w path).2) := by
  induction path generalizing t with
  | nil => rfl
  | cons s path ih =>
    cases path with
    | nil => simp [write, insert_insert]
    | cons r path =>
      obtain ⟨nested, he, ho⟩ := open_cons_cons.mp h
      simp only [write_cons_cons, he, entered?_insert_table, ih ho, insert_insert, Option.map_none]

theorem write_child {path : List String} {t : Table} (hp : path ≠ []) (h : Open path t) (key : String)
    (v : Value) (es : Table) :
    (t.write (.table es) path).2.write v (path ++ [key]) =
      (none, (t.write (.table (es.insert key v)) path).2) := by
  induction path generalizing t with
  | nil => exact absurd rfl hp
  | cons s path ih =>
    cases path with
    | nil => simp [write_cons_cons, entered?_insert_table, write, insert_insert]
    | cons r path =>
      obtain ⟨nested, he, ho⟩ := open_cons_cons.mp h
      have hi := ih (by simp) ho
      simp only [List.cons_append] at hi ⊢
      simp only [write_cons_cons, he, entered?_insert_table, hi, insert_insert, Option.map_none]

theorem find?_write_append {path more : List String} {t : Table} (hp : path ≠ []) (h : Open path t)
    (hm : more ≠ []) (es : Table) :
    (t.write (.table es) path).2.find? (path ++ more) = es.find? more := by
  induction path generalizing t with
  | nil => exact absurd rfl hp
  | cons s path ih =>
    cases path with
    | nil =>
      obtain ⟨r, more, rfl⟩ := List.exists_cons_of_ne_nil hm
      simp [write, find?_cons_cons, nested?_insert_table]
    | cons r path =>
      obtain ⟨nested, he, ho⟩ := open_cons_cons.mp h
      have hi := ih (by simp) ho
      simp only [List.cons_append] at hi ⊢
      simp only [write_cons_cons, he, find?_cons_cons s, nested?_insert_table, Option.bind_some, hi]

/-- Nothing stands at a path yet, and nothing is in its way. -/
structure Free (path : List String) (t : Table) : Prop where
  absent : t.find? path = none
  isOpen : Open path t

theorem free_cons_cons {s r : String} {path : List String} {t : Table} (h : Free (s :: r :: path) t) :
    ∃ nested, t.entered? s = some nested ∧ Free (r :: path) nested := by
  obtain ⟨nested, he, ho⟩ := open_cons_cons.mp h.isOpen
  exact ⟨nested, he, by rw [← find?_of_entered? he]; exact h.absent, ho⟩

theorem write_below_free {path : List String} {t : Table} (hp : path ≠ []) (h : Free path t)
    (key : String) (v : Value) :
    t.write v (path ++ [key]) = (none, (t.write (.table [(key, v)]) path).2) := by
  induction path generalizing t with
  | nil => exact absurd rfl hp
  | cons s path ih =>
    cases path with
    | nil =>
      have he : t.entered? s = some [] := entered?_eq_some.mpr (.inr ⟨h.absent, rfl⟩)
      simp [write_cons_cons, he, write, insert]
    | cons r path =>
      obtain ⟨nested, he, hf⟩ := free_cons_cons h
      have hi := ih (by simp) hf
      simp only [List.cons_append] at hi ⊢
      simp only [write_cons_cons, he, hi, Option.map_none]

theorem Free.below {path : List String} {t : Table} (hp : path ≠ []) (h : Free path t) (key : String) :
    Free (path ++ [key]) t := by
  refine ⟨?_, fun v => by rw [write_below_free hp h]⟩
  induction path generalizing t with
  | nil => exact absurd rfl hp
  | cons s path ih =>
    cases path with
    | nil =>
      have hs : t.get? s = none := h.absent
      simp [find?_cons_cons, nested?, hs]
    | cons r path =>
      obtain ⟨nested, he, hf⟩ := free_cons_cons h
      simp only [List.cons_append]
      rw [find?_of_entered? he]
      exact ih (by simp) hf

theorem free_below_write {path : List String} {t es : Table} (hp : path ≠ []) (h : Open path t)
    {key : String} (hk : es.get? key = none) :
    Free (path ++ [key]) (t.write (.table es) path).2 :=
  ⟨(find?_write_append hp h (by simp) es).trans hk, fun v => by rw [write_child hp h]⟩

end Table

namespace Settings

open Key

theorem set_of_open {t : Table} {path : List String} (hne : path ≠ []) (hp : ∀ s ∈ path, Plain s)
    (h : Table.Open path t) (v : Value) :
    set ⟨t⟩ (ofSegments path) v = .ok ⟨(t.write v path).2⟩ := by
  have hs := segments_ofSegments hne hp
  have he : path.any String.isEmpty = false := by
    rw [List.any_eq_false]
    intro s hm
    simpa using (hp s hm).1
  have hw : t.write v path = (none, (t.write v path).2) := Prod.ext (h v) rfl
  simp only [set, write, hs, he, Bool.false_eq_true, if_false]
  rw [hw]

theorem merge_leaf {s : Settings} {key : String} {v : Value} (hv : v.isTable = false) :
    merge s key v = if s.contains key then .error (duplicate key) else s.set key v := by
  cases v with
  | table entries => cases hv
  | _ => rfl

theorem get?_ofSegments {t : Table} {path : List String} (hne : path ≠ [])
    (hp : ∀ s ∈ path, Plain s) : get? ⟨t⟩ (ofSegments path) = t.find? path := by
  rw [get?, segments_ofSegments hne hp]

theorem mergeEntries_cons {s next : Settings} {key k : String} {v : Value}
    {rest : List (String × Value)} (h : merge s (key ++ "." ++ k) v = .ok next) :
    mergeEntries s key ((k, v) :: rest) = mergeEntries next key rest := by
  rw [mergeEntries, h]
  rfl

mutual

theorem merge_of_free {t : Table} {path : List String} {v : Value} (hne : path ≠ [])
    (hp : ∀ s ∈ path, Plain s) (h : t.Free path) (hv : v.Tidy Plain) :
    merge ⟨t⟩ (ofSegments path) v = .ok ⟨(t.write v path).2⟩ := by
  have hg : get? ⟨t⟩ (ofSegments path) = none := (get?_ofSegments hne hp).trans h.absent
  cases hl : v.isTable with
  | false =>
    rw [merge_leaf hl, contains, hg]
    exact set_of_open hne hp h.isOpen v
  | true =>
    match v, hl, hv with
    | .table [], _, _ =>
      simp only [merge, hg]
      exact set_of_open hne hp h.isOpen _
    | .table ((k, w) :: rest), _, hv =>
      obtain ⟨hk, hnew, hw, hr⟩ := hv
      have hpk : ∀ s ∈ path ++ [k], Plain s := List.forall_mem_append.mpr ⟨hp, by simpa using hk⟩
      have hf := h.below hne k
      have hfirst := merge_of_free (by simp) hpk hf hw
      rw [ofSegments_concat hne, Table.write_below_free hne h] at hfirst
      simp only [merge, hg, mergeEntries_cons hfirst]
      exact mergeEntries_of_open hne hp h.isOpen hr fun s hs hm => by
        have hsk : s = k := by simpa using hm
        exact hnew (hsk ▸ hs)
termination_by sizeOf v

theorem mergeEntries_of_open {t done todo : Table} {path : List String} (hne : path ≠ [])
    (hp : ∀ s ∈ path, Plain s) (h : t.Open path) (ht : EntriesTidy Plain todo)
    (hd : ∀ k ∈ todo.map Prod.fst, k ∉ done.map Prod.fst) :
    mergeEntries ⟨(t.write (.table done) path).2⟩ (ofSegments path) todo =
      .ok ⟨(t.write (.table (done ++ todo)) path).2⟩ := by
  match todo with
  | [] => simp [mergeEntries]
  | (k, v) :: rest =>
    obtain ⟨hk, hnew, hv, hr⟩ := ht
    have hkd : k ∉ done.map Prod.fst := hd k (by simp)
    have hpk : ∀ s ∈ path ++ [k], Plain s := List.forall_mem_append.mpr ⟨hp, by simpa using hk⟩
    have hf := Table.free_below_write hne h (Table.get?_eq_none hkd)
    have hrest : mergeEntries ⟨(t.write (.table (done ++ [(k, v)])) path).2⟩ (ofSegments path) rest =
        .ok ⟨(t.write (.table (done ++ [(k, v)] ++ rest)) path).2⟩ :=
      mergeEntries_of_open hne hp h hr fun s hs => by
        have hsd := hd s (List.mem_cons_of_mem _ hs)
        have hsk : s ≠ k := fun he => hnew (he ▸ hs)
        simp [hsd, hsk]
    have hfirst := merge_of_free (by simp) hpk hf hv
    rw [ofSegments_concat hne, Table.write_child hne h, Table.insert_of_not_mem hkd] at hfirst
    rw [mergeEntries_cons hfirst, hrest, List.append_assoc, List.singleton_append]
termination_by sizeOf todo

end

/-- A store without empty or dotted keys is read back as it is. -/
theorem ofDotted_of_tidy {t : Table} (h : EntriesTidy Plain t) : ofDotted t = .ok ⟨t⟩ := by
  have hall (done todo : Table) (ht : EntriesTidy Plain todo)
      (hd : ∀ k ∈ todo.map Prod.fst, k ∉ done.map Prod.fst) :
      todo.foldlM (fun s e => merge s e.1 e.2) (⟨done⟩ : Settings) = .ok ⟨done ++ todo⟩ := by
    induction todo generalizing done with
    | nil => simp [pure, Except.pure]
    | cons e rest ih =>
      obtain ⟨k, v⟩ := e
      obtain ⟨hk, hnew, hv, hr⟩ := ht
      have hkd : k ∉ done.map Prod.fst := hd k (by simp)
      have hf : Table.Free [k] done := ⟨Table.get?_eq_none hkd, Table.open_singleton k done⟩
      have hplain : ∀ s ∈ [k], Plain s := by simpa using hk
      have hm := merge_of_free (List.cons_ne_nil k []) hplain hf hv
      rw [ofSegments_singleton, Table.write, Table.insert_of_not_mem hkd] at hm
      rw [List.foldlM_cons, List.append_cons]
      simp only [hm]
      exact ih (done ++ [(k, v)]) hr fun s hs => by
        have hsd := hd s (List.mem_cons_of_mem _ hs)
        have hsk : s ≠ k := fun he => hnew (he ▸ hs)
        simp [hsd, hsk]
  exact hall [] t h (by simp)

end Settings
end Interview
