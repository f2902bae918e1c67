import Interview.Proofs.Settings.Paths
import Interview.Toml.Patch

/-! What a document shows once a store is written over it. A value that is put in its place shows there
unless an inline table on the way lacks the next step: a table with a header of its own cannot be
written inside it. Everything beside the path stays as it was. -/

namespace Interview.Toml

namespace Entries

theorem get?_put_self (key : Key) (item : Item) (es : Entries) :
    (es.put key item).get? key.name = some item := by
  induction es with
  | nil => simp [put, get?]
  | cons e rest ih =>
    obtain ⟨k, i⟩ := e
    by_cases hk : k.name = key.name
    · simp [put, get?, hk]
    · simp [put, get?, hk, ih]

theorem get?_put_of_ne {key : Key} {name : String} (h : key.name ≠ name) (item : Item)
    (es : Entries) : (es.put key item).get? name = es.get? name := by
  induction es with
  | nil => simp [put, get?, h]
  | cons e rest ih =>
    obtain ⟨k, i⟩ := e
    by_cases hk : k.name = key.name
    · simp [put, get?, hk, h]
    · simp [put, get?, hk, ih]

theorem exists_mem_of_get? {name : String} {es : Entries} {item : Item}
    (h : es.get? name = some item) : ∃ k, (k, item) ∈ es ∧ k.name = name := by
  induction es with
  | nil => cases h
  | cons e rest ih =>
    obtain ⟨k, i⟩ := e
    by_cases hk : k.name = name
    · obtain rfl : i = item := by simpa [get?, hk] using h
      exact ⟨k, by simp, hk⟩
    · obtain ⟨k', hm, hn⟩ := ih (by simpa [get?, hk] using h)
      exact ⟨k', List.mem_cons_of_mem _ hm, hn⟩

end Entries

/-- The value of an item that is not a table. -/
def Item.leaf? : Item → Option Value
  | .literal _ _ v => some v
  | .array decor items comma trailing => (Item.array decor items comma trailing).raw.value?
  | .tables elements => (Item.tables elements).raw.value?
  | _ => none

/-- The entries of an item that shows as a table, and whether they stand inside an inline table. There
a table of dotted keys shows, but none with a header. -/
def Item.inside? (inInline : Bool) : Item → Option (Bool × Entries)
  | .inline _ _ entries => some (true, entries)
  | .table info entries =>
    if inInline && !info.dotted then none else some (inInline, entries)
  | _ => none

def leafAt? (inInline : Bool) : List String → Entries → Option Value
  | [], _ => none
  | [name], es => (es.get? name).bind Item.leaf?
  | name :: path, es =>
    ((es.get? name).bind (Item.inside? inInline)).bind fun (inInline, inner) =>
      leafAt? inInline path inner

/-- A value put at the end of the path shows: the way there never leaves what an inline table has. -/
def roomFor (inInline : Bool) : List String → Entries → Bool
  | [], _ => true
  | [_], _ => true
  | name :: path, es =>
    match (es.get? name).bind (Item.inside? inInline) with
    | some (inInline, inner) => roomFor inInline path inner
    | none => !inInline

theorem leafAt?_cons_cons (inInline : Bool) (s r : String) (path : List String) (es : Entries) :
    leafAt? inInline (s :: r :: path) es =
      ((es.get? s).bind (Item.inside? inInline)).bind fun e => leafAt? e.1 (r :: path) e.2 := rfl

theorem roomFor_cons_cons (inInline : Bool) (s r : String) (path : List String) (es : Entries) :
    roomFor inInline (s :: r :: path) es =
      match (es.get? s).bind (Item.inside? inInline) with
      | some e => roomFor e.1 (r :: path) e.2
      | none => !inInline := by
  cases h : (es.get? s).bind (Item.inside? inInline) <;> simp [roomFor, h]

theorem leafAt?_nil_entries (inInline : Bool) (path : List String) :
    leafAt? inInline path [] = none := by
  cases path with
  | nil => rfl
  | cons s path => cases path <;> rfl

theorem roomFor_nil_entries (path : List String) : roomFor false path [] = true := by
  cases path with
  | nil => rfl
  | cons s path => cases path <;> rfl

theorem leafAt?_congr {s : String} {es fs : Entries} (h : es.get? s = fs.get? s) (inInline : Bool)
    (path : List String) : leafAt? inInline (s :: path) es = leafAt? inInline (s :: path) fs := by
  cases path <;> simp only [leafAt?, h]

theorem roomFor_congr {s : String} {es fs : Entries} (h : es.get? s = fs.get? s) (inInline : Bool)
    (path : List String) : roomFor inInline (s :: path) es = roomFor inInline (s :: path) fs := by
  cases path <;> simp only [roomFor, h]

theorem inside?_eq_none {item : Item} (h : item.entries? = none) (inInline : Bool) :
    item.inside? inInline = none := by
  cases item <;> first | rfl | cases h

theorem leaf?_withEntries {item : Item} {inner : Entries} (h : item.entries? = some inner)
    (other : Entries) : (item.withEntries other).leaf? = none := by
  cases item <;> first | rfl | cases h

theorem inside?_withEntries (inInline : Bool) (item : Item) {inner : Entries}
    (h : item.entries? = some inner) (other : Entries) :
    (item.withEntries other).inside? inInline = (item.inside? inInline).map fun e => (e.1, other) := by
  cases item with
  | inline info preamble entries => rfl
  | table info entries =>
    simp only [Item.withEntries, Item.inside?]
    split <;> rfl
  | _ => cases h

/-- An item in the way of a value: a table is entered and anything else gives place to a new one. -/
def Item.entered (v : Value) (path : List String) : Option Item → Item
  | some item =>
    match item.entries? with
    | some inner => item.withEntries (putLeaf v path inner)
    | none => .table (.implied false) (putLeaf v path [])
  | none => .table (.implied false) (putLeaf v path [])

theorem putLeaf_cons_cons (v : Value) (s r : String) (path : List String) (es : Entries) :
    putLeaf v (s :: r :: path) es =
      es.put (.plain s) (Item.entered v (r :: path) (es.get? s)) := by
  simp only [putLeaf, Item.entered]
  split
  · split <;> simp_all
  · simp_all

theorem get?_putLeaf_of_ne {v : Value} {s name : String} (h : s ≠ name) (path : List String)
    (es : Entries) : (putLeaf v (s :: path) es).get? name = es.get? name := by
  have hne : (Key.plain s).name ≠ name := h
  cases path with
  | nil => exact Entries.get?_put_of_ne hne _ es
  | cons r path =>
    rw [putLeaf_cons_cons]
    exact Entries.get?_put_of_ne hne _ es

theorem get?_putLeaf_singleton (v : Value) (s : String) (es : Entries) :
    (putLeaf v [s] es).get? s = some (leafItem v (es.get? s)) :=
  Entries.get?_put_self (.plain s) _ es

theorem get?_putLeaf_cons_cons (v : Value) (s r : String) (path : List String) (es : Entries) :
    (putLeaf v (s :: r :: path) es).get? s = some (Item.entered v (r :: path) (es.get? s)) := by
  rw [putLeaf_cons_cons]
  exact Entries.get?_put_self (.plain s) _ es

theorem leaf?_entered (v : Value) (path : List String) (item : Option Item) :
    (Item.entered v path item).leaf? = none := by
  unfold Item.entered
  split
  · split
    · exact leaf?_withEntries ‹_› _
    · rfl
  · rfl

/-- What a table on the way shows afterwards. One that has to be made shows only outside inline
tables. -/
theorem inside?_entered (v : Value) (path : List String) (inInline : Bool) (item : Option Item) :
    (Item.entered v path item).inside? inInline =
      match item.bind (Item.inside? inInline) with
      | some e => some (e.1, putLeaf v path e.2)
      | none => if inInline then none else some (false, putLeaf v path []) := by
  have hnew : (Item.table (.implied false) (putLeaf v path [])).inside? inInline =
      if inInline then none else some (false, putLeaf v path []) := by
    cases inInline <;> rfl
  cases item with
  | none => exact hnew
  | some item =>
    cases item with
    | inline info preamble entries => rfl
    | table info entries =>
      simp only [Item.entered, Item.entries?, Item.withEntries, Item.inside?, Option.bind_some]
      cases inInline <;> cases info.dotted <;> rfl
    | _ => exact hnew

theorem leafAt?_putLeaf_self {v : Value} {path : List String} (hp : path ≠ []) (inInline : Bool)
    (es : Entries) : leafAt? inInline path (putLeaf v path es) =
      if roomFor inInline path es then some v else none := by
  induction path generalizing inInline es with
  | nil => exact absurd rfl hp
  | cons s path ih =>
    cases path with
    | nil => simp [leafAt?, get?_putLeaf_singleton, leafItem, Item.leaf?, roomFor]
    | cons r path =>
      rw [leafAt?_cons_cons, get?_putLeaf_cons_cons, Option.bind_some, inside?_entered,
        roomFor_cons_cons]
      cases (es.get? s).bind (Item.inside? inInline) with
      | some e => exact ih (by simp) e.1 e.2
      | none =>
        cases inInline with
        | true => rfl
        | false => simpa [roomFor_nil_entries] using ih (by simp) false []

theorem leafAt?_putLeaf_eq_none {v : Value} {path q : List String} (hq : q ≠ path) {inInline : Bool}
    {es : Entries} (h : leafAt? inInline q es = none) :
    leafAt? inInline q (putLeaf v path es) = none := by
  induction path generalizing q inInline es with
  | nil => exact h
  | cons s path ih =>
    cases q with
    | nil => rfl
    | cons s' q =>
      by_cases hs : s = s'
      · subst s'
        have hne : q ≠ path := fun he => hq (by rw [he])
        cases path with
        | nil =>
          obtain ⟨r', q, rfl⟩ := List.exists_cons_of_ne_nil hne
          rw [leafAt?_cons_cons, get?_putLeaf_singleton]
          rfl
        | cons r path =>
          cases q with
          | nil => simp [leafAt?, get?_putLeaf_cons_cons, leaf?_entered]
          | cons r' q =>
            rw [leafAt?_cons_cons] at h
            rw [leafAt?_cons_cons, get?_putLeaf_cons_cons, Option.bind_some, inside?_entered]
            cases he : (es.get? s).bind (Item.inside? inInline) with
            | some e => exact ih hne (by simpa [he] using h)
            | none =>
              cases inInline with
              | true => rfl
              | false => exact ih hne (leafAt?_nil_entries false (r' :: q))
      · rwa [leafAt?_congr (get?_putLeaf_of_ne hs path es)]

theorem putLeaf_of_incomparable {v : Value} {path q : List String} (hp : ¬ q <+: path)
    (hq : ¬ path <+: q) (inInline : Bool) (es : Entries) :
    leafAt? inInline q (putLeaf v path es) = leafAt? inInline q es ∧
      roomFor inInline q (putLeaf v path es) = roomFor inInline q es := by
  induction path generalizing q inInline es with
  | nil => exact absurd List.nil_prefix hq
  | cons s path ih =>
    cases q with
    | nil => exact ⟨rfl, rfl⟩
    | cons s' q =>
      by_cases hs : s = s'
      · subst s'
        have hp' : ¬ q <+: path := fun h => hp (List.cons_prefix_cons.mpr ⟨rfl, h⟩)
        have hq' : ¬ path <+: q := fun h => hq (List.cons_prefix_cons.mpr ⟨rfl, h⟩)
        cases path with
        | nil => exact absurd List.nil_prefix hq'
        | cons r path =>
          cases q with
          | nil => exact absurd List.nil_prefix hp'
          | cons r' q =>
            rw [leafAt?_cons_cons, leafAt?_cons_cons, roomFor_cons_cons, roomFor_cons_cons,
              get?_putLeaf_cons_cons, Option.bind_some, inside?_entered]
            cases (es.get? s).bind (Item.inside? inInline) with
            | some e => exact ih hp' hq' e.1 e.2
            | none =>
              cases inInline with
              | true => exact ⟨rfl, rfl⟩
              | false =>
                obtain ⟨hl, hr⟩ := ih hp' hq' false []
                exact ⟨hl.trans (leafAt?_nil_entries false _), hr.trans (roomFor_nil_entries _)⟩
      · have hg := get?_putLeaf_of_ne (v := v) hs path es
        exact ⟨leafAt?_congr hg inInline q, roomFor_congr hg inInline q⟩

def putLeaves (leaves : List (List String × Value)) (es : Entries) : Entries :=
  leaves.foldl (fun es e => putLeaf e.2 e.1 es) es

theorem putLeaves_cons (e : List String × Value) (rest : List (List String × Value)) (es : Entries) :
    putLeaves (e :: rest) es = putLeaves rest (putLeaf e.2 e.1 es) := rfl

theorem leafAt?_putLeaves_eq_none {leaves : List (List String × Value)} {q : List String}
    (hq : q ∉ leaves.map Prod.fst) {inInline : Bool} {es : Entries}
    (h : leafAt? inInline q es = none) : leafAt? inInline q (putLeaves leaves es) = none := by
  induction leaves generalizing es with
  | nil => exact h
  | cons e rest ih =>
    rw [List.map_cons, List.mem_cons, not_or] at hq
    exact ih hq.2 (leafAt?_putLeaf_eq_none hq.1 h)

theorem leafAt?_putLeaves_of_incomparable {leaves : List (List String × Value)} {q : List String}
    (hq : ∀ e ∈ leaves, ¬ q <+: e.1 ∧ ¬ e.1 <+: q) (inInline : Bool) (es : Entries) :
    leafAt? inInline q (putLeaves leaves es) = leafAt? inInline q es := by
  induction leaves generalizing es with
  | nil => rfl
  | cons e rest ih =>
    obtain ⟨hp, hs⟩ := hq e (by simp)
    rw [putLeaves_cons, ih (fun e he => hq e (List.mem_cons_of_mem _ he)),
      (putLeaf_of_incomparable hp hs inInline es).1]

/-- Values for places that are not in each other's way show one by one as if they were alone. -/
theorem leafAt?_putLeaves_of_mem {leaves : List (List String × Value)}
    (hpair : leaves.Pairwise fun a b => ¬ a.1 <+: b.1 ∧ ¬ b.1 <+: a.1)
    {path : List String} {v : Value} (hne : path ≠ []) (hm : (path, v) ∈ leaves) (inInline : Bool)
    (es : Entries) : leafAt? inInline path (putLeaves leaves es) =
      if roomFor inInline path es then some v else none := by
  induction leaves generalizing es with
  | nil => cases hm
  | cons e rest ih =>
    obtain ⟨he, hrest⟩ := List.pairwise_cons.mp hpair
    rw [putLeaves_cons]
    rcases List.mem_cons.mp hm with rfl | hm
    · rw [leafAt?_putLeaves_of_incomparable he]
      exact leafAt?_putLeaf_self hne inInline es
    · obtain ⟨hp, hs⟩ := he _ hm
      rw [ih hrest hm, (putLeaf_of_incomparable hs hp inInline es).2]

def tableAt (inInline : Bool) : List String → Entries → Bool
  | [], _ => false
  | name :: path, es =>
    match (es.get? name).bind (Item.inside? inInline) with
    | some (inInline, inner) => path.isEmpty || tableAt inInline path inner
    | none => false

theorem tableAt_cons (inInline : Bool) (s : String) (path : List String) (es : Entries) :
    tableAt inInline (s :: path) es =
      match (es.get? s).bind (Item.inside? inInline) with
      | some e => path.isEmpty || tableAt e.1 path e.2
      | none => false := by
  cases h : (es.get? s).bind (Item.inside? inInline) <;> simp [tableAt, h]

theorem tableAt_putLeaf {v : Value} {path q : List String} {inInline : Bool} {es : Entries}
    (h : tableAt inInline q (putLeaf v path es) = true) :
    tableAt inInline q es = true ∨ (q <+: path ∧ q ≠ path) := by
  induction path generalizing q inInline es with
  | nil => exact .inl h
  | cons s path ih =>
    cases q with
    | nil => cases h
    | cons s' q =>
      by_cases hs : s = s'
      · subst s'
        cases path with
        | nil =>
          rw [tableAt_cons, get?_putLeaf_singleton] at h
          cases h
        | cons r path =>
          cases q with
          | nil => exact .inr (by simp)
          | cons r' q =>
            have hstep (hq : r' :: q <+: r :: path ∧ r' :: q ≠ r :: path) :
                s :: r' :: q <+: s :: r :: path ∧ s :: r' :: q ≠ s :: r :: path :=
              ⟨List.cons_prefix_cons.mpr ⟨rfl, hq.1⟩, fun he => hq.2 (List.cons.inj he).2⟩
            rw [tableAt_cons, get?_putLeaf_cons_cons, Option.bind_some, inside?_entered] at h
            rw [tableAt_cons]
            cases he : (es.get? s).bind (Item.inside? inInline) with
            | some e => exact (ih (by simpa [he] using h)).imp id hstep
            | none =>
              cases inInline with
              | true => simp [he] at h
              | false =>
                have hnew : tableAt false (r' :: q) (putLeaf v (r :: path) []) = true := by
                  simpa [he] using h
                exact .inr (hstep ((ih hnew).resolve_left Bool.false_ne_true))
      · rw [tableAt_cons, get?_putLeaf_of_ne hs] at h
        exact .inl (by rwa [tableAt_cons])

theorem tableAt_putLeaves {leaves : List (List String × Value)} {q : List String} {inInline : Bool}
    {es : Entries} (h : tableAt inInline q (putLeaves leaves es) = true) :
    tableAt inInline q es = true ∨ ∃ e ∈ leaves, q <+: e.1 ∧ q ≠ e.1 := by
  induction leaves generalizing es with
  | nil => exact .inl h
  | cons e rest ih =>
    rcases ih h with h | ⟨e', he, hq⟩
    · rcases tableAt_putLeaf h with h | hq
      · exact .inl h
      · exact .inr ⟨e, by simp, hq⟩
    · exact .inr ⟨e', List.mem_cons_of_mem e he, hq⟩

end Interview.Toml
