import Interview.Proofs.Settings.Taking
import Interview.Proofs.Toml.Spelling

/-! A test that tells whether a table shows what a document does. Keys are compared in their order, and
beside them the values, as far as they are strings, integers or Booleans. -/

namespace Interview.Toml

open Interview.Key (Plain segments)

def isSame : Value → Value → Bool
  | .str s, .str t => s == t
  | .int m, .int n => m == n
  | .bool a, .bool b => a == b
  | _, _ => false

theorem eq_of_isSame {v w : Value} (h : isSame v w = true) : v = w := by
  cases v <;> cases w <;> simp_all [isSame]

mutual

def Item.mirrored (inInline : Bool) (item : Item) : Value → Bool
  | .table entries =>
    match item.inside? inInline with
    | some (inInline, inner) => mirrors inInline inner entries
    | none => false
  | v => item.leaf?.any (isSame v)

/-- The entries show as the table, in which no key is empty and none stands twice. -/
def mirrors (inInline : Bool) (es : Entries) : List (String × Value) → Bool
  | [] => es.isEmpty
  | (name, v) :: rest =>
    match es with
    | [] => false
    | (k, i) :: es =>
      name != "" && !(rest.any (·.1 == name)) && k.name == name && i.mirrored inInline v &&
        mirrors inInline es rest

end

variable {inInline : Bool}

theorem mirrors_cons {es : Entries} {name : String} {v : Value} {rest : Table}
    (h : mirrors inInline es ((name, v) :: rest) = true) :
    name ≠ "" ∧ name ∉ rest.map Prod.fst ∧ ∃ k i more, es = (k, i) :: more ∧ k.name = name ∧
      i.mirrored inInline v = true ∧ mirrors inInline more rest = true := by
  cases es with
  | nil => cases h
  | cons e more =>
    obtain ⟨k, i⟩ := e
    simp only [mirrors, Bool.and_eq_true, bne_iff_ne, beq_iff_eq, Bool.not_eq_true'] at h
    obtain ⟨⟨⟨⟨hname, hnew⟩, hk⟩, hi⟩, hmore⟩ := h
    refine ⟨hname, fun hm => ?_, k, i, more, rfl, hk, hi, hmore⟩
    obtain ⟨e, he, rfl⟩ := List.mem_map.mp hm
    simpa using List.any_eq_false.mp hnew e he

mutual

theorem tidy_of_mirrored {inInline : Bool} {item : Item} {v : Value}
    (h : item.mirrored inInline v = true) : v.Tidy (· ≠ "") := by
  match v with
  | .table entries =>
    cases hi : item.inside? inInline with
    | none => simp [Item.mirrored, hi] at h
    | some e =>
      simp only [Item.mirrored, hi] at h
      exact tidy_of_mirrors h
  | .str _ | .int _ | .float _ | .bool _ | .datetime _ | .array _ => trivial

theorem tidy_of_mirrors {inInline : Bool} {es : Entries} {t : Table}
    (h : mirrors inInline es t = true) : EntriesTidy (· ≠ "") t := by
  match t with
  | [] => trivial
  | (name, v) :: rest =>
    obtain ⟨hname, hnew, k, i, more, rfl, -, hi, hmore⟩ := mirrors_cons h
    exact ⟨hname, hnew, tidy_of_mirrored hi, tidy_of_mirrors hmore⟩

end

theorem get?_of_mirrors {es : Entries} {t : Table} (h : mirrors inInline es t = true) (name : String) :
    (t.get? name = none ∧ es.get? name = none) ∨
      ∃ v item, t.get? name = some v ∧ es.get? name = some item ∧
        item.mirrored inInline v = true := by
  induction t generalizing es with
  | nil =>
    rw [mirrors, List.isEmpty_iff] at h
    exact .inl ⟨rfl, by rw [h]; rfl⟩
  | cons e rest ih =>
    obtain ⟨key, v⟩ := e
    obtain ⟨-, -, k, i, more, rfl, rfl, hi, hmore⟩ := mirrors_cons h
    by_cases hk : k.name = name
    · exact .inr ⟨v, i, by simp [Table.get?, hk], by simp [Entries.get?, hk], hi⟩
    · simpa [Table.get?, Entries.get?, hk] using ih hmore

theorem Item.leaf?_of_inside? {item : Item} {e : Bool × Entries}
    (h : item.inside? inInline = some e) : item.leaf? = none := by
  cases item with
  | inline info preamble entries => rfl
  | table info entries => rfl
  | _ => cases h

theorem Item.mirrored_leaf {item : Item} {v : Value} (h : item.mirrored inInline v = true)
    (hv : v.isTable = false) : item.leaf? = some v := by
  cases v with
  | table entries => cases hv
  | _ =>
    obtain ⟨w, hw, hsame⟩ := (Option.any_eq_true _ _).mp h
    rw [hw, eq_of_isSame hsame]

theorem Item.mirrored_table {item : Item} {entries : Table}
    (h : item.mirrored inInline (.table entries) = true) :
    ∃ e, item.inside? inInline = some e ∧ mirrors e.1 e.2 entries = true := by
  cases hi : item.inside? inInline with
  | none => simp [Item.mirrored, hi] at h
  | some e => exact ⟨e, rfl, by simpa only [Item.mirrored, hi] using h⟩

theorem nested_of_mirrors {es : Entries} {t : Table} (h : mirrors inInline es t = true) (name : String) :
    (t.nested? name = none ∧ (es.get? name).bind (Item.inside? inInline) = none) ∨
      ∃ entries e, t.nested? name = some entries ∧
        (es.get? name).bind (Item.inside? inInline) = some e ∧ mirrors e.1 e.2 entries = true := by
  obtain ⟨ht, he⟩ | ⟨v, item, ht, he, hi⟩ := get?_of_mirrors h name
  · exact .inl ⟨by simp [Table.nested?, ht], by simp [he]⟩
  · cases hv : v.isTable with
    | true =>
      obtain ⟨entries, rfl⟩ := Value.eq_table hv
      obtain ⟨e, hinside, hm⟩ := Item.mirrored_table hi
      exact .inr ⟨entries, e, Table.nested?_eq_some.mpr ht, by simp [he, hinside], hm⟩
    | false =>
      have hleaf := Item.mirrored_leaf hi hv
      have hnone : item.inside? inInline = none := by
        cases hin : item.inside? inInline with
        | none => rfl
        | some e => simp [Item.leaf?_of_inside? hin] at hleaf
      have hnested : t.nested? name = none := by
        cases hn : t.nested? name with
        | none => rfl
        | some entries =>
          rw [Table.nested?_eq_some.mp hn, Option.some.injEq] at ht
          rw [← ht] at hv
          cases hv
      exact .inl ⟨hnested, by simp [he, hnone]⟩

theorem leaf?_of_mirrors {path : List String} {es : Entries} {t : Table}
    (h : mirrors inInline es t = true) : t.leaf? path = leafAt? inInline path es := by
  induction path generalizing inInline es t with
  | nil => rfl
  | cons name path ih =>
    cases path with
    | nil =>
      obtain ⟨ht, he⟩ | ⟨v, item, ht, he, hi⟩ := get?_of_mirrors h name
      · simp [Table.leaf?, Table.find?, leafAt?, ht, he]
      · cases hv : v.isTable with
        | false => simp [Table.leaf?, Table.find?, leafAt?, ht, he, hv, Item.mirrored_leaf hi hv]
        | true =>
          obtain ⟨entries, rfl⟩ := Value.eq_table hv
          obtain ⟨e, hinside, -⟩ := Item.mirrored_table hi
          simp [Table.leaf?, Table.find?, leafAt?, ht, he, hv, Item.leaf?_of_inside? hinside]
    | cons r path =>
      rw [Table.leaf?, Table.find?_cons_cons, leafAt?_cons_cons]
      obtain ⟨ht, he⟩ | ⟨entries, e, ht, he, hm⟩ := nested_of_mirrors h name
      · simp [ht, he]
      · rw [ht, he]
        exact ih hm

theorem tableAt_of_mirrors {path : List String} {es : Entries} {t : Table} {inner : Table}
    (h : mirrors inInline es t = true) (hf : t.find? path = some (.table inner)) :
    tableAt inInline path es = true := by
  induction path generalizing inInline es t with
  | nil => cases hf
  | cons name path ih =>
    rw [tableAt_cons]
    obtain ⟨ht, he⟩ | ⟨entries, e, ht, he, hm⟩ := nested_of_mirrors h name
    · cases path with
      | nil => simp [Table.nested?_eq_some.mpr hf] at ht
      | cons r path => simp [Table.find?_cons_cons, ht] at hf
    · rw [he]
      cases path with
      | nil => rfl
      | cons r path =>
        rw [Table.find?_cons_cons, ht] at hf
        exact ih hm hf

theorem shows_of_mirrors {l : Layout} {t : Table} (h : mirrors false l.entries t = true) :
    Shows t l :=
  ⟨(tidy_of_mirrors h).mono fun _ _ => trivial, fun _ => congrArg _ (leaf?_of_mirrors h),
    fun _ _ => tableAt_of_mirrors h⟩

/-- Among kept keys without dots there are no other spellings. -/
theorem spelledOnce_iff_of_mirrors {kept : Entries} {t : Table} (h : mirrors false kept t = true)
    (ht : EntriesTidy Plain t) (path : List String) (v : Value) :
    SpelledOnce kept path v ↔ roomFor false path kept = true := by
  refine spelledOnce_iff_roomFor fun q hne hq => ?_
  rw [← leaf?_of_mirrors h]
  cases hl : t.leaf? q with
  | none => rfl
  | some u =>
    have hnames := (Table.names_of_find? ht (Table.leaf?_eq_some.mp hl).1).2
    exact absurd ((Interview.Key.flatMap_segments hnames).symm.trans hq) hne

end Interview.Toml
