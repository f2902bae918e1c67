import Interview.Proofs.Settings.Deleting

/-! A write to a store as a whole. It goes through exactly if no segment of its key is empty and no value
is in its way, and then it is seen nowhere but on its own path: all keys keep their places, in every table,
and a key that was not there goes to the end. A write that is refused names the value in its way. -/

namespace Interview

theorem Key.segments_ofSegments_of_noDot {path : List String} (hne : path ≠ [])
    (h : ∀ s ∈ path, '.' ∉ s.toList) : segments (ofSegments path) = path := by
  rw [segments_join hne, flatMap_segments_of_noDot h]

theorem Key.segments_of_prefix {path : List String} {key : String} (hne : path ≠ [])
    (hp : path <+: segments key) : segments (ofSegments path) = path :=
  segments_ofSegments_of_noDot hne fun _ hs => noDot_of_mem_segments (hp.subset hs)

namespace Table

/-- The keys of the table at the end of a path, in their order. The empty path ends at the table itself. -/
def keysAt? : List String → Table → Option (List String)
  | [], t => some (t.map Prod.fst)
  | s :: path, t => (t.nested? s).bind (keysAt? path)

theorem keys_insert_eq (key : String) (v : Value) (t : Table) :
    (t.insert key v).map Prod.fst =
      t.map Prod.fst ++ if key ∈ t.map Prod.fst then [] else [key] := by
  by_cases h : key ∈ t.map Prod.fst
  · rw [if_pos h, List.append_nil]
    induction t with
    | nil => cases h
    | cons e rest ih =>
      obtain ⟨k, w⟩ := e
      by_cases hk : k = key
      · simp [insert, hk]
      · have hr : key ∈ rest.map Prod.fst := by simpa [Ne.symm hk] using h
        simp [insert, hk, ih hr]
  · rw [if_neg h, insert_of_not_mem h, List.map_append, List.map_singleton]

theorem nested?_insert_of_ne {key s : String} (h : key ≠ s) (v : Value) (t : Table) :
    (t.insert key v).nested? s = t.nested? s := by
  simp only [nested?, get?_insert_of_ne h]

theorem keysAt?_insert_of_ne {key s : String} (h : key ≠ s) (v : Value) (path : List String)
    (t : Table) : (t.insert key v).keysAt? (s :: path) = t.keysAt? (s :: path) := by
  rw [keysAt?, keysAt?, nested?_insert_of_ne h]

theorem keysAt?_insert_top (s : String) (w : Value) (path : List String) (t : Table) :
    ∃ more, (t.insert s w).keysAt? [] = some (t.map Prod.fst ++ more) ∧
      ∀ r ∈ more, r ∉ t.map Prod.fst ∧ [] ++ [r] <+: s :: path := by
  refine ⟨_, congrArg some (keys_insert_eq s w t), fun r hr => ?_⟩
  split at hr
  · cases hr
  · next hs =>
    obtain rfl := List.mem_singleton.mp hr
    exact ⟨hs, by simp⟩

/-- Keys stay where they are, and a new key goes to the end of the table on the way that lacks it. -/
theorem keysAt?_write {path q ks : List String} {t : Table} (v : Value) (hq : ¬ path <+: q)
    (hk : t.keysAt? q = some ks) :
    ∃ more, (t.write v path).2.keysAt? q = some (ks ++ more) ∧
      ∀ r ∈ more, r ∉ ks ∧ q ++ [r] <+: path := by
  have hsame (u : Table) (h : u.keysAt? q = t.keysAt? q) : ∃ more, u.keysAt? q = some (ks ++ more) ∧
      ∀ r ∈ more, r ∉ ks ∧ q ++ [r] <+: path := ⟨[], by rw [h, hk, List.append_nil], by simp⟩
  induction path generalizing t q with
  | nil => exact absurd List.nil_prefix hq
  | cons s path ih =>
    cases path with
    | nil =>
      cases q with
      | nil =>
        obtain rfl := Option.some.inj hk
        exact keysAt?_insert_top s v [] t
      | cons s' q =>
        have hs : s ≠ s' := by
          rintro rfl
          exact hq (by simp)
        exact hsame _ (keysAt?_insert_of_ne hs v q t)
    | cons r path =>
      rw [write_cons_cons]
      cases he : t.entered? s with
      | none => exact hsame t rfl
      | some nested =>
        dsimp only
        cases q with
        | nil =>
          obtain rfl := Option.some.inj hk
          exact keysAt?_insert_top s _ (r :: path) t
        | cons s' q =>
          by_cases hs : s = s'
          · subst s'
            obtain ⟨inner, hn, hi⟩ := Option.bind_eq_some_iff.mp hk
            obtain rfl : inner = nested := by
              have hin := entered?_eq_some.mpr (.inl (nested?_eq_some.mp hn))
              exact Option.some.inj (hin.symm.trans he)
            have hq' : ¬ r :: path <+: q := fun h => hq (List.cons_prefix_cons.mpr ⟨rfl, h⟩)
            obtain ⟨more, hmore, hnew⟩ := ih hq' hi fun u hu =>
              ⟨[], by rw [hu, hi, List.append_nil], by simp⟩
            refine ⟨more, ?_, fun x hx => ⟨(hnew x hx).1, ?_⟩⟩
            · rw [keysAt?, nested?_insert_table, Option.bind_some, hmore]
            · exact List.cons_prefix_cons.mpr ⟨rfl, (hnew x hx).2⟩
          · exact hsame _ (keysAt?_insert_of_ne hs _ q t)

theorem leaf_of_write_blocked {v : Value} {path blocked : List String} {t : Table}
    (h : (t.write v path).1 = some blocked) :
    blocked <+: path ∧ blocked ≠ path ∧ blocked ≠ [] ∧ ∃ w, t.leaf? blocked = some w := by
  induction path generalizing t blocked with
  | nil => cases h
  | cons s path ih =>
    cases path with
    | nil => cases h
    | cons r path =>
      rw [write_cons_cons] at h
      cases he : t.entered? s with
      | none =>
        rw [he] at h
        obtain rfl := Option.some.inj h
        have hleaf : t.leaf? [s] ≠ none := fun hnone => by
          obtain ⟨nested, hn⟩ := exists_entered?_iff.mpr hnone
          rw [he] at hn
          cases hn
        exact ⟨by simp, by simp, by simp, Option.ne_none_iff_exists'.mp hleaf⟩
      | some nested =>
        rw [he] at h
        obtain ⟨rest, hrest, rfl⟩ := Option.map_eq_some_iff.mp h
        obtain ⟨hp, hne, hnil, w, hw⟩ := ih hrest
        obtain ⟨r', rest, rfl⟩ := List.exists_cons_of_ne_nil hnil
        refine ⟨List.cons_prefix_cons.mpr ⟨rfl, hp⟩, by simpa using hne, by simp, w, ?_⟩
        rw [leaf?_of_entered? he, hw]

end Table

namespace Settings

open Key

variable {s after : Settings} {key : String} {v : Value}

/-- The shortest key on the way to another one that leads to a value, so that nothing can be written below
it. -/
structure Blocks (s : Settings) (key blocking : String) : Prop where
  above : segments blocking <+: segments key
  ne : blocking ≠ key
  leaf : ∃ w, s.leaf? blocking = some w
  shortest : ∀ above, segments above <+: segments blocking → above ≠ blocking → s.leaf? above = none

/-- What a write that went through has done, and all that it has done. -/
structure Stored (s : Settings) (key : String) (v : Value) (after : Settings) : Prop where
  found : after.get? key = some v
  above : ∀ above, segments above <+: segments key → above ≠ key → after.HasTable above
  beside : ∀ other, ¬ segments other <+: segments key → ¬ segments key <+: segments other →
    after.get? other = s.get? other
  order : ∀ path ks, ¬ segments key <+: path → s.root.keysAt? path = some ks →
    ∃ more, after.root.keysAt? path = some (ks ++ more) ∧
      ∀ r ∈ more, r ∉ ks ∧ path ++ [r] <+: segments key

theorem write_eq (s : Settings) (key : String) (v : Value) :
    s.write key v =
      if "" ∈ segments key then (.error (.invalidValue key .emptySegment), s)
      else
        match (s.root.write v (segments key)).1 with
        | none => (.ok (), ⟨(s.root.write v (segments key)).2⟩)
        | some blocked => (.error (.conflict key (ofSegments blocked)), s) := by
  have hany : (segments key).any String.isEmpty = true ↔ "" ∈ segments key := by simp
  by_cases he : "" ∈ segments key
  · simp only [write, hany.mpr he, he, if_true]
  · have hno : ¬ (segments key).any String.isEmpty = true := fun h => he (hany.mp h)
    cases hw : s.root.write v (segments key) with
    | mk outcome root =>
      cases outcome with
      | none => simp only [write, hno, he, hw, if_false, Bool.false_eq_true]
      | some blocked =>
        have hr : root = s.root := by simpa [hw] using Table.write_blocked (congrArg Prod.fst hw)
        simp only [write, hno, he, hw, hr, if_false, Bool.false_eq_true]

theorem blocks_of_write_blocked {blocked : List String}
    (h : (s.root.write v (segments key)).1 = some blocked) : s.Blocks key (ofSegments blocked) := by
  obtain ⟨hp, hne, hnil, w, hw⟩ := Table.leaf_of_write_blocked h
  have hseg : segments (ofSegments blocked) = blocked := segments_of_prefix hnil hp
  have hleaf : s.leaf? (ofSegments blocked) = some w := by rw [leaf?, hseg, hw]
  refine ⟨by rwa [hseg], ?_, ⟨w, hleaf⟩, fun above ha hab => ?_⟩
  · rintro rfl
    exact hne hseg.symm
  · exact leaf?_of_hasTable (hasTable_of_below (leaf?_eq_some.mp hleaf).1 ha (Ne.symm hab))

theorem open_segments_iff : Table.Open (segments key) s.root ↔
    ∀ above, segments above <+: segments key → above ≠ key → s.leaf? above = none := by
  rw [Table.open_iff]
  constructor
  · intro h above hp hne
    exact h (segments above) hp fun he => hne (segments_inj he)
  · intro h q hp hne
    by_cases hnil : q = []
    · rw [hnil]
      rfl
    · have hseg := segments_of_prefix hnil hp
      have hleaf := h (ofSegments q) (by rwa [hseg]) (by rintro rfl; exact hne hseg.symm)
      rwa [leaf?, hseg] at hleaf

theorem write_eq_ok_iff : (s.write key v).1 = .ok () ↔ "" ∉ segments key ∧
    ∀ above, segments above <+: segments key → above ≠ key → s.leaf? above = none := by
  rw [← open_segments_iff, write_eq]
  by_cases he : "" ∈ segments key
  · simp [he]
  · rw [if_neg he]
    cases hw : (s.root.write v (segments key)).1 with
    | none => exact iff_of_true rfl ⟨he, Table.open_of_write hw⟩
    | some blocked =>
      refine iff_of_false (by simp) fun h => ?_
      rw [h.2 v] at hw
      cases hw

theorem stored_of_write (h : s.write key v = (.ok (), after)) : s.Stored key v after := by
  refine ⟨get?_write_self h, fun above hp hne => (hasTable_above_write h hp hne).2,
    fun other hp hk => get?_write_of_incomparable h hp hk, fun path ks hq hk => ?_⟩
  rcases s.write_cases key v with ⟨e, hw⟩ | ⟨-, hw⟩
  · simp [hw] at h
  · obtain rfl : _ = after := by simpa [hw] using h
    exact Table.keysAt?_write v hq hk

/-- A write goes through exactly if its key has no empty segment and no key on the way leads to a value.
Otherwise it leaves everything as it was, and says what is wrong with the key or which value is in the way;
if it goes through, it is found, and no other key is lost, moved or led to something else. -/
theorem write_stored_or_refused (s : Settings) (key : String) (v : Value) :
    ((s.write key v).1 = .ok () ↔ "" ∉ segments key ∧
      ∀ above, segments above <+: segments key → above ≠ key → s.leaf? above = none) ∧
    match s.write key v with
    | (.ok (), after) => s.Stored key v after
    | (.error e, after) => after = s ∧
      ("" ∈ segments key ∧ e = .invalidValue key .emptySegment ∨
        "" ∉ segments key ∧ ∃ blocking, e = .conflict key blocking ∧ s.Blocks key blocking) := by
  refine ⟨write_eq_ok_iff, ?_⟩
  have heq := s.write_eq key v
  by_cases he : "" ∈ segments key
  · rw [if_pos he] at heq
    rw [heq]
    exact ⟨rfl, .inl ⟨he, rfl⟩⟩
  · rw [if_neg he] at heq
    cases hw : (s.root.write v (segments key)).1 with
    | none =>
      rw [hw] at heq
      rw [heq]
      exact stored_of_write heq
    | some blocked =>
      rw [hw] at heq
      rw [heq]
      exact ⟨rfl, .inr ⟨he, _, rfl, blocks_of_write_blocked hw⟩⟩

end Settings
end Interview
