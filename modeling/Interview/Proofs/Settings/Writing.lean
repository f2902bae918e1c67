import Interview.Settings.Basic
import Mathlib.Data.List.Infix

/-! Writing at the end of a path. A write that is blocked leaves every table as it was, one that goes
through is found again, and paths that neither lead to it nor pass it see no change. -/

namespace Interview.Table

theorem insert_of_get? {key : String} {v : Value} {t : Table} (h : t.get? key = some v) :
    t.insert key v = t := by
  induction t with
  | nil => simp [get?] at h
  | cons e rest ih =>
    obtain ⟨k, w⟩ := e
    by_cases hk : k = key
    · have hw : w = v := by simpa [get?, hk] using h
      simp [insert, hk, hw]
    · have hr : get? key rest = some v := by simpa [get?, hk] using h
      simp [insert, hk, ih hr]

def nested? (key : String) (t : Table) : Option Table :=
  match t.get? key with
  | some (.table nested) => some nested
  | _ => none

theorem nested?_eq_some {key : String} {t nested : Table} :
    t.nested? key = some nested ↔ t.get? key = some (.table nested) := by
  unfold nested?
  split <;> simp_all

theorem nested?_insert_table (key : String) (nested t : Table) :
    nested? key (t.insert key (.table nested)) = some nested := by
  simp [nested?]

theorem find?_cons_cons (s r : String) (path : List String) (t : Table) :
    t.find? (s :: r :: path) = (t.nested? s).bind (find? (r :: path)) := by
  cases hs : t.get? s with
  | none => simp [find?, nested?, hs]
  | some w => cases w <;> simp [find?, nested?, hs]

theorem table_of_find?_append {path more : List String} {t : Table} {v : Value}
    (h : t.find? (path ++ more) = some v) (hp : path ≠ []) (hm : more ≠ []) :
    ∃ entries, t.find? path = some (.table entries) := by
  induction path generalizing t with
  | nil => exact absurd rfl hp
  | cons s path ih =>
    cases path with
    | nil =>
      obtain ⟨r, more, rfl⟩ := List.exists_cons_of_ne_nil hm
      rw [List.singleton_append, find?_cons_cons] at h
      obtain ⟨nested, hn, -⟩ := Option.bind_eq_some_iff.mp h
      exact ⟨nested, nested?_eq_some.mp hn⟩
    | cons r path =>
      rw [List.cons_append, List.cons_append, find?_cons_cons] at h
      obtain ⟨nested, hn, h⟩ := Option.bind_eq_some_iff.mp h
      obtain ⟨entries, he⟩ := ih h (by simp)
      exact ⟨entries, by rw [find?_cons_cons, hn]; exact he⟩

theorem find?_nil_table (path : List String) : find? path [] = none := by
  cases path with
  | nil => rfl
  | cons s path => cases path <;> simp [find?, get?]

/-- The table that a write enters under a key: the one that is there, or a new one. -/
def entered? (key : String) (t : Table) : Option Table :=
  match (t.get? key).getD (.table []) with
  | .table nested => some nested
  | _ => none

theorem entered?_eq_some {key : String} {t nested : Table} :
    t.entered? key = some nested ↔
      t.get? key = some (.table nested) ∨ (t.get? key = none ∧ nested = []) := by
  cases hk : t.get? key with
  | none => simp [entered?, hk, eq_comm]
  | some w => cases w <;> simp [entered?, hk]

theorem write_cons_cons (v : Value) (s r : String) (path : List String) (t : Table) :
    t.write v (s :: r :: path) =
      match t.entered? s with
      | some nested =>
        ((nested.write v (r :: path)).1.map (s :: ·),
          t.insert s (.table (nested.write v (r :: path)).2))
      | none => (some [s], t) := by
  simp only [write, entered?]
  split <;> simp_all

theorem write_nil_table (v : Value) (path : List String) : (write v path []).1 = none := by
  induction path with
  | nil => rfl
  | cons s path ih =>
    cases path with
    | nil => rfl
    | cons r path => simp [write_cons_cons, entered?, get?, ih]

theorem write_blocked {v : Value} {path blocked : List String} {t : Table}
    (h : (t.write v path).1 = some blocked) : (t.write v path).2 = t := by
  induction path generalizing t blocked with
  | nil => rfl
  | cons s path ih =>
    cases path with
    | nil => simp [write] at h
    | cons r path =>
      rw [write_cons_cons] at h ⊢
      cases he : t.entered? s with
      | none => rfl
      | some nested =>
        simp only [he, Option.map_eq_some_iff] at h ⊢
        obtain ⟨rest, hrest, _⟩ := h
        rcases entered?_eq_some.mp he with hs | ⟨_, hn⟩
        · rw [ih hrest]
          exact insert_of_get? hs
        · rw [hn, write_nil_table] at hrest
          exact absurd hrest (by simp)

theorem find?_write_self {v : Value} {path : List String} {t : Table} (hp : path ≠ [])
    (h : (t.write v path).1 = none) : (t.write v path).2.find? path = some v := by
  induction path generalizing t with
  | nil => exact absurd rfl hp
  | cons s path ih =>
    cases path with
    | nil => simp [write, find?]
    | cons r path =>
      rw [write_cons_cons] at h ⊢
      cases he : t.entered? s with
      | none => simp [he] at h
      | some nested =>
        simp only [he, Option.map_eq_none_iff] at h
        simpa only [find?_cons_cons s, nested?_insert_table, Option.bind_some] using ih (by simp) h

theorem find?_of_entered? {s r : String} {path : List String} {t nested : Table}
    (h : t.entered? s = some nested) : t.find? (s :: r :: path) = nested.find? (r :: path) := by
  rw [find?_cons_cons]
  rcases entered?_eq_some.mp h with hs | ⟨hs, hn⟩
  · simp [nested?, hs]
  · simp [nested?, hs, hn, find?_nil_table]

theorem find?_insert_of_ne {key s : String} (h : key ≠ s) (v : Value) (path : List String)
    (t : Table) : (t.insert key v).find? (s :: path) = t.find? (s :: path) := by
  cases path <;> simp [find?, get?_insert_of_ne h]

theorem find?_write_of_incomparable {v : Value} {path other : List String} {t : Table}
    (hp : ¬ other <+: path) (ho : ¬ path <+: other) :
    (t.write v path).2.find? other = t.find? other := by
  induction path generalizing t other with
  | nil => exact absurd List.nil_prefix ho
  | cons s path ih =>
    cases other with
    | nil => exact absurd List.nil_prefix hp
    | cons s' other =>
      by_cases hs : s = s'
      · subst s'
        have hp' : ¬ other <+: path := fun h => hp (List.cons_prefix_cons.mpr ⟨rfl, h⟩)
        have ho' : ¬ path <+: other := fun h => ho (List.cons_prefix_cons.mpr ⟨rfl, h⟩)
        cases path with
        | nil => exact absurd List.nil_prefix ho'
        | cons r path =>
          cases other with
          | nil => exact absurd List.nil_prefix hp'
          | cons r' other =>
            rw [write_cons_cons]
            cases he : t.entered? s with
            | none => rfl
            | some nested =>
              rw [find?_of_entered? he]
              simpa only [find?_cons_cons s, nested?_insert_table, Option.bind_some] using ih hp' ho'
      · cases path with
        | nil => exact find?_insert_of_ne hs v other t
        | cons r path =>
          rw [write_cons_cons]
          cases t.entered? s with
          | none => rfl
          | some nested => exact find?_insert_of_ne hs _ other t

end Interview.Table

namespace Interview.Settings

theorem write_cases (s : Settings) (key : String) (v : Value) :
    (∃ e, s.write key v = (.error e, s)) ∨
      (s.root.write v (Key.segments key)).1 = none ∧
        s.write key v = (.ok (), ⟨(s.root.write v (Key.segments key)).2⟩) := by
  by_cases he : (Key.segments key).any String.isEmpty = true
  · exact .inl ⟨.invalidValue key .emptySegment, by simp [write, he]⟩
  · cases hw : s.root.write v (Key.segments key) with
    | mk outcome root =>
      cases outcome with
      | none => exact .inr ⟨rfl, by simp [write, he, hw]⟩
      | some blocked =>
        have hr : root = s.root := by simpa [hw] using Table.write_blocked (congrArg Prod.fst hw)
        exact .inl ⟨.conflict key (Key.ofSegments blocked), by simp [write, he, hw, hr]⟩

theorem write_error {s after : Settings} {key : String} {v : Value} {e : Error}
    (h : s.write key v = (.error e, after)) : after = s := by
  rcases s.write_cases key v with ⟨_, hw⟩ | ⟨_, hw⟩
  · simpa [hw, eq_comm] using congrArg Prod.snd h
  · simp [hw] at h

theorem get?_write_self {s after : Settings} {key : String} {v : Value}
    (h : s.write key v = (.ok (), after)) : after.get? key = some v := by
  rcases s.write_cases key v with ⟨_, hw⟩ | ⟨hn, hw⟩
  · simp [hw] at h
  · obtain rfl : _ = after := by simpa [hw] using h
    exact Table.find?_write_self (Key.segments_ne_nil key) hn

theorem get?_write_of_incomparable {s after : Settings} {key other : String} {v : Value}
    (h : s.write key v = (.ok (), after)) (hk : ¬ Key.segments other <+: Key.segments key)
    (ho : ¬ Key.segments key <+: Key.segments other) : after.get? other = s.get? other := by
  rcases s.write_cases key v with ⟨_, hw⟩ | ⟨_, hw⟩
  · simp [hw] at h
  · obtain rfl : _ = after := by simpa [hw] using h
    exact Table.find?_write_of_incomparable hk ho

end Interview.Settings
