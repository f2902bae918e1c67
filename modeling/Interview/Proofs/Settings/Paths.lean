import Interview.Proofs.Settings.Writing
import Interview.Proofs.Text.Cutting

/-! Stores by the paths of their leaves. Where no key is empty or holds a dot, a dotted key and a path
say the same, and a store is told by which leaf a look-up finds at which path. -/

namespace Interview

namespace Key

/-- A key of one segment, and not an empty one. -/
def Plain (key : String) : Prop := key ≠ "" ∧ '.' ∉ key.toList

theorem ofSegments_singleton (key : String) : ofSegments [key] = key := by
  simp [ofSegments, Text.join]

theorem segments_of_noDot {key : String} (h : '.' ∉ key.toList) : segments key = [key] := by
  simp [segments, Text.cut_of_not_mem h]

theorem noDot_of_mem_segments {key s : String} (h : s ∈ segments key) : '.' ∉ s.toList := by
  obtain ⟨piece, hp, rfl⟩ := List.mem_map.mp h
  simpa using Text.not_mem_of_mem_cut hp

theorem segments_append (key other : String) :
    segments (key ++ "." ++ other) = segments key ++ segments other := by
  simp [segments, Text.cut_append]

theorem segments_foldl_below {key : String} (h : key.isEmpty = false) (path : List String) :
    segments (path.foldl below key) = segments key ++ path.flatMap segments := by
  induction path generalizing key with
  | nil => simp
  | cons s path ih =>
    have hb : below key s = key ++ "." ++ s := by rw [below, h, if_neg Bool.false_ne_true]
    rw [List.foldl_cons, hb, ih (by simp), segments_append, List.append_assoc, List.flatMap_cons]

theorem segments_foldl_below_empty {s : String} (h : s ≠ "") (path : List String) :
    segments ((s :: path).foldl below "") = (s :: path).flatMap segments := by
  have hs : below "" s = s := rfl
  rw [List.foldl_cons, hs, segments_foldl_below (by simpa using h), List.flatMap_cons]

theorem segments_join {path : List String} (hne : path ≠ []) :
    segments (ofSegments path) = path.flatMap segments := by
  have hc : Text.cut '.' (Text.join ['.'] (path.map String.toList)) =
      (path.map String.toList).flatMap (Text.cut '.') := Text.cut_join (by simpa using hne)
  rw [segments, ofSegments, String.toList_ofList, hc, List.map_flatMap, List.flatMap_map]
  rfl

theorem flatMap_segments_of_noDot {path : List String} (h : ∀ s ∈ path, '.' ∉ s.toList) :
    path.flatMap segments = path := by
  induction path with
  | nil => rfl
  | cons s path ih =>
    obtain ⟨hs, hp⟩ := List.forall_mem_cons.mp h
    rw [List.flatMap_cons, segments_of_noDot hs, ih hp, List.singleton_append]

theorem flatMap_segments {path : List String} (h : ∀ s ∈ path, Plain s) :
    path.flatMap segments = path :=
  flatMap_segments_of_noDot fun s hs => (h s hs).2

theorem segments_ofSegments {path : List String} (hne : path ≠ []) (h : ∀ s ∈ path, Plain s) :
    segments (ofSegments path) = path := by
  rw [segments_join hne, flatMap_segments h]

theorem ofSegments_ne_empty {path : List String} (hne : path ≠ []) (h : ∀ s ∈ path, Plain s) :
    ofSegments path ≠ "" := by
  intro he
  have hs := segments_ofSegments hne h
  rw [he] at hs
  have hp := h "" (by rw [← hs]; simp [segments, Text.cut])
  exact hp.1 rfl

/-- A path whose key tells it from the empty path: only the empty path has an empty key. -/
def Named (path : List String) : Prop := path ≠ [] → ofSegments path ≠ ""

theorem named_of_plain {path : List String} (h : ∀ s ∈ path, Plain s) : Named path :=
  fun hne => ofSegments_ne_empty hne h

theorem ofSegments_concat {path : List String} (hne : path ≠ []) (key : String) :
    ofSegments (path ++ [key]) = ofSegments path ++ "." ++ key := by
  apply String.toList_injective
  rw [ofSegments, ofSegments, List.map_append, List.map_singleton,
    Text.join_append_singleton (by simpa using hne)]
  simp

theorem below_of_named {path : List String} (h : Named path) (key : String) :
    below (ofSegments path) key = ofSegments (path ++ [key]) := by
  by_cases hne : path = []
  · subst hne
    simp [below, ofSegments, Text.join]
  · have hb : (ofSegments path).isEmpty = false := by simpa using h hne
    rw [below, hb, if_neg Bool.false_ne_true, ofSegments_concat hne]

theorem named_concat {path : List String} {key : String} (h : path = [] → key ≠ "") :
    Named (path ++ [key]) := by
  intro _ he
  by_cases hne : path = []
  · subst hne
    rw [List.nil_append, ofSegments_singleton] at he
    exact h rfl he
  · rw [ofSegments_concat hne] at he
    simpa using congrArg String.toList he

end Key

mutual

/-- The ends of the paths at and below a path: every leaf with its value, and every empty table without
one. -/
def Value.ends (path : List String) : Value → List (List String × Option Value)
  | .table [] => [(path, none)]
  | .table (e :: es) => entryEnds path (e :: es)
  | leaf => [(path, some leaf)]

def entryEnds (parent : List String) : List (String × Value) → List (List String × Option Value)
  | [] => []
  | (k, v) :: rest => v.ends (parent ++ [k]) ++ entryEnds parent rest

end

def entryPaths (parent : List String) (entries : Table) : List (List String × Value) :=
  (entryEnds parent entries).filterMap fun e => e.2.map (e.1, ·)

/-- What a path ends with at a value, unless it is a table that leads on. -/
def Value.end? : Value → Option (Option Value)
  | .table [] => some none
  | .table (_ :: _) => none
  | leaf => some (some leaf)

mutual

/-- No table has a key twice, and all keys are of some kind. Tables in lists do not count. -/
def Value.Tidy (P : String → Prop) : Value → Prop
  | .table entries => EntriesTidy P entries
  | _ => True

def EntriesTidy (P : String → Prop) : List (String × Value) → Prop
  | [] => True
  | (k, v) :: rest => P k ∧ k ∉ rest.map Prod.fst ∧ v.Tidy P ∧ EntriesTidy P rest

end

theorem Value.ends_of_end? {v : Value} {o : Option Value} (h : v.end? = some o) (path : List String) :
    v.ends path = [(path, o)] := by
  cases v with
  | table entries =>
    cases entries with
    | nil =>
      obtain rfl := Option.some.inj h
      rfl
    | cons e es => cases h
  | _ =>
    obtain rfl := Option.some.inj h
    rfl

theorem Value.eq_table_of_end? {v : Value} (h : v.end? = none) :
    ∃ e es, v = .table (e :: es) := by
  cases v with
  | table entries =>
    cases entries with
    | nil => cases h
    | cons e es => exact ⟨e, es, rfl⟩
  | _ => cases h

theorem Value.end?_eq_some_some {v w : Value} : v.end? = some (some w) ↔ v = w ∧ v.isTable = false := by
  cases v with
  | table entries => cases entries <;> simp [end?, isTable]
  | _ => simp [end?, isTable]

theorem Value.end?_eq_some_none {v : Value} : v.end? = some none ↔ v = .table [] := by
  cases v with
  | table entries => cases entries <;> simp [end?]
  | _ => simp [end?]

theorem Value.leaves_of_end? {v : Value} {o : Option Value} (h : v.end? = some o) (key : String) :
    v.leaves key = (o.map (key, ·)).toList := by
  cases v with
  | table entries =>
    cases entries with
    | nil =>
      obtain rfl := Option.some.inj h
      rfl
    | cons e es => cases h
  | _ =>
    obtain rfl := Option.some.inj h
    rfl

theorem Value.eq_table {v : Value} (h : v.isTable = true) : ∃ entries, v = .table entries := by
  cases v with
  | table entries => exact ⟨entries, rfl⟩
  | _ => cases h

namespace Table

variable {P : String → Prop}

theorem mem_keys_of_get? {key : String} {t : Table} {v : Value} (h : t.get? key = some v) :
    key ∈ t.map Prod.fst := by
  induction t with
  | nil => cases h
  | cons e rest ih =>
    obtain ⟨k, w⟩ := e
    by_cases hk : k = key
    · simp [hk]
    · exact List.mem_cons_of_mem _ (ih (by simpa [get?, hk] using h))

theorem get?_of_find? {s : String} {path : List String} {t : Table} {v : Value}
    (h : t.find? (s :: path) = some v) : ∃ w, t.get? s = some w := by
  cases path with
  | nil => exact ⟨v, h⟩
  | cons r path =>
    rw [find?_cons_cons] at h
    obtain ⟨nested, hn, -⟩ := Option.bind_eq_some_iff.mp h
    exact ⟨_, nested?_eq_some.mp hn⟩

theorem find?_cons_of_ne {k s : String} (h : k ≠ s) (w : Value) (path : List String) (t : Table) :
    find? (s :: path) ((k, w) :: t) = find? (s :: path) t := by
  cases path <;> simp [find?, get?, h]

theorem find?_below_end {k r : String} {path : List String} {t : Table} {w : Value}
    {o : Option Value} (h : t.get? k = some w) (hw : w.end? = some o) :
    t.find? (k :: r :: path) = none := by
  rw [find?_cons_cons]
  cases w with
  | table entries =>
    cases entries with
    | nil => simp [nested?, h, find?_nil_table]
    | cons e es => cases hw
  | _ => simp [nested?, h]

theorem find?_cons_table {k r : String} {path : List String} {inner t : Table} :
    find? (k :: r :: path) ((k, .table inner) :: t) = find? (r :: path) inner := by
  simp [find?, get?]

end Table

def Table.end? (path : List String) (t : Table) : Option (Option Value) :=
  (t.find? path).bind Value.end?

def Table.leaf? (path : List String) (t : Table) : Option Value := (t.find? path).filter (!·.isTable)

theorem Table.leaf?_eq_some {path : List String} {t : Table} {v : Value} :
    t.leaf? path = some v ↔ t.find? path = some v ∧ v.isTable = false := by
  simp [leaf?, Option.filter_eq_some_iff]

theorem Table.leaf?_iff_end? {path : List String} {t : Table} {v : Value} :
    t.leaf? path = some v ↔ t.end? path = some (some v) := by
  rw [leaf?_eq_some, end?, Option.bind_eq_some_iff]
  simp only [Value.end?_eq_some_some]
  constructor
  · rintro ⟨hf, hv⟩
    exact ⟨v, hf, rfl, hv⟩
  · rintro ⟨_, hf, rfl, hv⟩
    exact ⟨hf, hv⟩

namespace Table

theorem end?_cons_of_ne {k s : String} (h : k ≠ s) (w : Value) (path : List String) (t : Table) :
    Table.end? (s :: path) ((k, w) :: t) = end? (s :: path) t := by
  rw [end?, find?_cons_of_ne h, ← end?]

theorem end?_of_not_mem {k : String} {t : Table} (h : k ∉ t.map Prod.fst) (path : List String) :
    Table.end? (k :: path) t = none := by
  cases hf : find? (k :: path) t with
  | none => simp [end?, hf]
  | some v =>
    obtain ⟨w, hg⟩ := get?_of_find? hf
    exact absurd (mem_keys_of_get? hg) h

theorem end?_cons_self (k : String) (w : Value) (t : Table) : end? [k] ((k, w) :: t) = w.end? := by
  simp [end?, find?, get?]

theorem end?_below_end {k r : String} {w : Value} {o : Option Value} (h : w.end? = some o)
    (path : List String) (t : Table) : end? (k :: r :: path) ((k, w) :: t) = none := by
  rw [end?, find?_below_end (by simp [get?]) h]
  rfl

theorem end?_cons_table (k r : String) (path : List String) (inner t : Table) :
    Table.end? (k :: r :: path) ((k, .table inner) :: t) = end? (r :: path) inner := by
  rw [end?, find?_cons_table, ← end?]

theorem end?_cons_open {inner : Table} (h : (Value.table inner).end? = none) (k : String)
    (path : List String) (t : Table) :
    Table.end? (k :: path) ((k, .table inner) :: t) = end? path inner := by
  cases path with
  | nil => exact (end?_cons_self k _ t).trans h
  | cons r path => exact end?_cons_table k r path inner t

theorem end?_cons_iff {k : String} {w : Value} {t : Table} (h : k ∉ t.map Prod.fst)
    {path : List String} {o : Option Value} :
    Table.end? path ((k, w) :: t) = some o ↔
      (∃ r, path = k :: r ∧ end? (k :: r) ((k, w) :: t) = some o) ∨ end? path t = some o := by
  constructor
  · intro hf
    cases path with
    | nil => cases hf
    | cons s path =>
      by_cases hs : k = s
      · subst hs
        exact .inl ⟨path, rfl, hf⟩
      · exact .inr (by rwa [end?_cons_of_ne hs] at hf)
  · rintro (⟨r, rfl, hf⟩ | hf)
    · exact hf
    · cases path with
      | nil => cases hf
      | cons s path =>
        have hs : k ≠ s := by
          rintro rfl
          rw [end?_of_not_mem h] at hf
          cases hf
        rwa [end?_cons_of_ne hs]

end Table

theorem Value.mem_ends_of_end? {w : Value} {o' : Option Value} (h : w.end? = some o') (k : String)
    (t : Table) {path q : List String} {o : Option Value} :
    (q, o) ∈ w.ends path ↔ ∃ r, q = path ++ r ∧ Table.end? (k :: r) ((k, w) :: t) = some o := by
  rw [Value.ends_of_end? h, List.mem_singleton]
  constructor
  · rintro ⟨rfl, rfl⟩
    exact ⟨[], by simp, (Table.end?_cons_self k w t).trans h⟩
  · rintro ⟨r, rfl, hf⟩
    cases r with
    | nil =>
      rw [Table.end?_cons_self, h] at hf
      rw [Option.some.inj hf, List.append_nil]
    | cons s r =>
      rw [Table.end?_below_end h] at hf
      cases hf

/-- The ends of the paths are what look-ups say. -/
theorem mem_entryEnds {P : String → Prop} {entries : List (String × Value)}
    (h : EntriesTidy P entries) {path q : List String} {o : Option Value} :
    (q, o) ∈ entryEnds path entries ↔ ∃ r, q = path ++ r ∧ Table.end? r entries = some o := by
  match entries with
  | [] => simp [entryEnds, Table.end?, Table.find?_nil_table]
  | (k, w) :: rest =>
    obtain ⟨hk, hnew, hw, hr⟩ := h
    have hhere : (q, o) ∈ w.ends (path ++ [k]) ↔
        ∃ r, q = path ++ [k] ++ r ∧ Table.end? (k :: r) ((k, w) :: rest) = some o := by
      cases hl : w.end? with
      | some o' => exact Value.mem_ends_of_end? hl k rest
      | none =>
        obtain ⟨e, es, rfl⟩ := Value.eq_table_of_end? hl
        simp only [Value.ends, mem_entryEnds hw, Table.end?_cons_open hl]
    rw [entryEnds, List.mem_append, hhere, mem_entryEnds hr]
    constructor
    · rintro (⟨r, hq, hf⟩ | ⟨r, hq, hf⟩)
      · exact ⟨k :: r, by simpa using hq, hf⟩
      · exact ⟨r, hq, (Table.end?_cons_iff hnew).mpr (.inr hf)⟩
    · rintro ⟨r, hq, hf⟩
      rcases (Table.end?_cons_iff hnew).mp hf with ⟨r, rfl, hf⟩ | hf
      · exact .inl ⟨r, by simpa using hq, hf⟩
      · exact .inr ⟨r, hq, hf⟩
termination_by sizeOf entries

theorem mem_entryPaths {P : String → Prop} {t : Table} (h : EntriesTidy P t) {path : List String}
    {v : Value} : (path, v) ∈ entryPaths [] t ↔ t.leaf? path = some v := by
  rw [entryPaths, List.mem_filterMap, Table.leaf?_iff_end?]
  constructor
  · rintro ⟨⟨q, o⟩, hm, he⟩
    obtain ⟨w, rfl, hw⟩ := Option.map_eq_some_iff.mp he
    obtain ⟨rfl, rfl⟩ := Prod.mk.inj hw
    obtain ⟨r, rfl, hf⟩ := (mem_entryEnds h).mp hm
    exact hf
  · intro hf
    exact ⟨(path, some v), (mem_entryEnds h).mpr ⟨path, rfl, hf⟩, rfl⟩

mutual

theorem prefix_of_mem_ends {w : Value} {path q : List String} {o : Option Value}
    (h : (q, o) ∈ w.ends path) : path <+: q := by
  cases hl : w.end? with
  | some o' =>
    rw [Value.ends_of_end? hl, List.mem_singleton] at h
    rw [(Prod.mk.inj h).1]
  | none =>
    obtain ⟨e, es, rfl⟩ := Value.eq_table_of_end? hl
    obtain ⟨k, -, hp⟩ := prefix_of_mem_entryEnds h
    exact (List.prefix_append _ _).trans hp
termination_by sizeOf w

theorem prefix_of_mem_entryEnds {entries : List (String × Value)} {path q : List String}
    {o : Option Value} (h : (q, o) ∈ entryEnds path entries) :
    ∃ k ∈ entries.map Prod.fst, path ++ [k] <+: q := by
  match entries with
  | [] => simp [entryEnds] at h
  | (k, w) :: rest =>
    rw [entryEnds, List.mem_append] at h
    rcases h with h | h
    · exact ⟨k, by simp, prefix_of_mem_ends h⟩
    · obtain ⟨k', hk, hp⟩ := prefix_of_mem_entryEnds h
      exact ⟨k', List.mem_cons_of_mem k hk, hp⟩
termination_by sizeOf entries

end

theorem Value.end?_of_mem_entryEnds {entries : List (String × Value)} {path q : List String}
    {o : Option Value} (h : (q, o) ∈ entryEnds path entries) : (o.getD (.table [])).end? = some o := by
  match entries with
  | [] => simp [entryEnds] at h
  | (k, w) :: rest =>
    rw [entryEnds, List.mem_append] at h
    rcases h with h | h
    · cases hl : w.end? with
      | some o' =>
        rw [Value.ends_of_end? hl, List.mem_singleton] at h
        obtain ⟨-, rfl⟩ := Prod.mk.inj h
        cases o with
        | none => rfl
        | some v =>
          obtain ⟨rfl, -⟩ := Value.end?_eq_some_some.mp hl
          exact hl
      | none =>
        obtain ⟨e, es, rfl⟩ := Value.eq_table_of_end? hl
        exact Value.end?_of_mem_entryEnds h
    · exact Value.end?_of_mem_entryEnds h
termination_by sizeOf entries

theorem Value.ends_ne_nil (v : Value) (path : List String) : v.ends path ≠ [] := by
  match v with
  | .table [] => simp [ends]
  | .table ((k, w) :: rest) => simp [ends, entryEnds, ends_ne_nil w]
  | .str _ | .int _ | .float _ | .bool _ | .datetime _ | .array _ => simp [ends]
termination_by sizeOf v

theorem nodup_entryEnds {P : String → Prop} {entries : List (String × Value)}
    (h : EntriesTidy P entries) (path : List String) :
    ((entryEnds path entries).map Prod.fst).Nodup := by
  match entries with
  | [] => simp [entryEnds]
  | (k, w) :: rest =>
    obtain ⟨hk, hnew, hw, hr⟩ := h
    rw [entryEnds, List.map_append, List.nodup_append]
    refine ⟨?_, nodup_entryEnds hr path, ?_⟩
    · cases hl : w.end? with
      | some o => simp [Value.ends_of_end? hl]
      | none =>
        obtain ⟨e, es, rfl⟩ := Value.eq_table_of_end? hl
        exact nodup_entryEnds hw (path ++ [k])
    · rintro q hq _ hq' rfl
      obtain ⟨⟨q, o⟩, hm, rfl⟩ := List.mem_map.mp hq
      obtain ⟨⟨_, o'⟩, hm', rfl⟩ := List.mem_map.mp hq'
      have hp := prefix_of_mem_ends hm
      obtain ⟨k', hk', hp'⟩ := prefix_of_mem_entryEnds hm'
      have heq : k = k' := by
        have hlen := (List.prefix_of_prefix_length_le hp hp' (by simp)).eq_of_length (by simp)
        simpa using hlen
      exact hnew (heq ▸ hk')
termination_by sizeOf entries

theorem nodup_entryPaths {P : String → Prop} {t : Table} (h : EntriesTidy P t) :
    ((entryPaths [] t).map Prod.fst).Nodup := by
  have hn := nodup_entryEnds h []
  rw [List.Nodup, List.pairwise_map] at hn ⊢
  rw [entryPaths, List.pairwise_filterMap]
  refine hn.imp fun {a b} hne x hx y hy => ?_
  obtain ⟨_, -, rfl⟩ := Option.map_eq_some_iff.mp hx
  obtain ⟨_, -, rfl⟩ := Option.map_eq_some_iff.mp hy
  exact hne

open Key in
theorem entryLeaves_of_named {entries : List (String × Value)} {path : List String} (hp : Named path)
    (hk : path = [] → ∀ k ∈ entries.map Prod.fst, k ≠ "") :
    entryLeaves (ofSegments path) entries =
      (entryPaths path entries).map fun e => (ofSegments e.1, e.2) := by
  match entries with
  | [] => rfl
  | (k, v) :: rest =>
    have hrest : entryLeaves (ofSegments path) rest =
        (entryPaths path rest).map fun e => (ofSegments e.1, e.2) :=
      entryLeaves_of_named hp fun he k' hk' => hk he k' (List.mem_cons_of_mem k hk')
    have hpath : Named (path ++ [k]) := named_concat fun he => hk he k List.mem_cons_self
    have hhere : v.leaves (ofSegments (path ++ [k])) =
        ((v.ends (path ++ [k])).filterMap fun e => e.2.map (e.1, ·)).map
          fun e => (ofSegments e.1, e.2) := by
      cases hl : v.end? with
      | some o =>
        rw [Value.ends_of_end? hl, Value.leaves_of_end? hl]
        cases o <;> rfl
      | none =>
        obtain ⟨e, es, rfl⟩ := Value.eq_table_of_end? hl
        exact entryLeaves_of_named hpath fun he => absurd he (by simp)
    rw [entryLeaves, below_of_named hp, hhere, hrest, entryPaths, entryPaths, entryEnds,
      List.filterMap_append, List.map_append]
termination_by sizeOf entries

theorem EntriesTidy.keys {P : String → Prop} {entries : List (String × Value)}
    (h : EntriesTidy P entries) : ∀ k ∈ entries.map Prod.fst, P k := by
  induction entries with
  | nil => simp
  | cons e rest ih =>
    obtain ⟨k, v⟩ := e
    obtain ⟨hk, -, -, hr⟩ := h
    exact List.forall_mem_cons.mpr ⟨hk, ih hr⟩

open Key in
theorem entryLeaves_eq {entries : List (String × Value)} (h : EntriesTidy Plain entries)
    {path : List String} (hp : ∀ s ∈ path, Plain s) :
    entryLeaves (ofSegments path) entries =
      (entryPaths path entries).map fun e => (ofSegments e.1, e.2) :=
  entryLeaves_of_named (named_of_plain hp) fun _ k hk => (h.keys k hk).1

theorem Table.find?_append_of_end {t : Table} {path more : List String} {o : Option Value}
    (h : t.end? path = some o) (hm : more ≠ []) : t.find? (path ++ more) = none := by
  induction path generalizing t with
  | nil => cases h
  | cons s path ih =>
    cases path with
    | nil =>
      obtain ⟨r, more, rfl⟩ := List.exists_cons_of_ne_nil hm
      obtain ⟨w, hf, hw⟩ := Option.bind_eq_some_iff.mp h
      exact find?_below_end hf hw
    | cons r path =>
      obtain ⟨w, hf, hw⟩ := Option.bind_eq_some_iff.mp h
      rw [find?_cons_cons] at hf
      obtain ⟨nested, hn, hf⟩ := Option.bind_eq_some_iff.mp hf
      rw [List.cons_append, List.cons_append, find?_cons_cons, hn]
      exact ih (Option.bind_eq_some_iff.mpr ⟨w, hf, hw⟩)

theorem Table.eq_of_prefix_of_leaf {t : Table} {path q : List String} {v w : Value}
    (hl : t.leaf? path = some v) (hf : t.find? q = some w) (hp : path <+: q) : path = q := by
  obtain ⟨more, rfl⟩ := hp
  by_cases hm : more = []
  · simp [hm]
  · rw [find?_append_of_end (leaf?_iff_end?.mp hl) hm] at hf
    cases hf

end Interview
