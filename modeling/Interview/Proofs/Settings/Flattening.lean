import Interview.Proofs.Settings.Keeping
import Interview.Settings.Cursor

/-! The cursor over a store against the plain recursion and against look-ups. What a cursor has still to
give is what the recursion finds in its open tables, so every step takes one leaf off that list. -/

namespace Interview

namespace Cursor

def ahead (c : Cursor) : List (String × Value) := c.opened.flatMap fun e => entryLeaves e.1 e.2

theorem ahead_cons (key : String) (entries : Table) (outer : List (String × Table)) :
    ahead ⟨(key, entries) :: outer⟩ = entryLeaves key entries ++ ahead ⟨outer⟩ := by
  simp [ahead]

theorem ahead_next (c : Cursor) : c.next.1 = c.ahead.head? ∧ c.next.2.ahead = c.ahead.tail := by
  fun_induction next c with
  | case1 => exact ⟨rfl, rfl⟩
  | case2 key outer ih => simpa [ahead_cons, entryLeaves] using ih
  | case3 parent k nested rest outer ih =>
    simpa [ahead_cons, entryLeaves, Value.leaves] using ih
  | case4 parent k leaf rest outer hleaf =>
    have hl : leaf.leaves (Key.below parent k) = [(Key.below parent k, leaf)] := by
      cases leaf with
      | table nested => exact absurd rfl (hleaf nested)
      | _ => rfl
    simp [ahead_cons, entryLeaves, hl]

theorem toList_eq (c : Cursor) : c.toList = c.ahead := by
  fun_induction toList c with
  | case1 c behind h =>
    have hhead := (ahead_next c).1
    rw [h] at hhead
    exact (List.head?_eq_none_iff.mp hhead.symm).symm
  | case2 c e behind h hlt ih =>
    obtain ⟨hhead, htail⟩ := ahead_next c
    rw [h] at hhead htail
    rw [ih, htail]
    exact List.cons_head?_tail hhead.symm

def advance : Nat → Cursor → Cursor
  | 0, c => c
  | n + 1, c => advance n c.next.2

theorem ahead_advance (n : Nat) (c : Cursor) : (c.advance n).ahead = c.ahead.drop n := by
  induction n generalizing c with
  | zero => rfl
  | succ n ih => rw [advance, ih, (ahead_next c).2, List.drop_tail]

end Cursor

namespace Settings

open Key

theorem items_eq (s : Settings) : s.items = s.leaves := by
  simp [items, Cursor.toList_eq, Cursor.ahead, cursor, leaves]

theorem mem_leaves_iff {s : Settings} (h : EntriesTidy Plain s.root) {key : String} {v : Value} :
    (key, v) ∈ s.leaves ↔ s.get? key = some v ∧ v.isTable = false := by
  rw [get?, ← Table.leaf?_eq_some]
  constructor
  · intro hm
    obtain ⟨path, hn, hp, rfl, hl⟩ := path_of_mem_leaves h hm
    rwa [segments_ofSegments hn hp]
  · intro hl
    rw [leaves_eq h, List.mem_map]
    exact ⟨(segments key, v), (mem_entryPaths h).mpr hl, by rw [ofSegments_segments]⟩

theorem eq_of_prefix_of_mem_leaves {s : Settings} (h : EntriesTidy Plain s.root)
    {e d : String × Value} (he : e ∈ s.leaves) (hd : d ∈ s.leaves)
    (hp : segments e.1 <+: segments d.1) : e = d := by
  obtain ⟨hef, hev⟩ := (mem_leaves_iff h).mp he
  obtain ⟨hdf, hdv⟩ := (mem_leaves_iff h).mp hd
  have hseg := Table.eq_of_prefix_of_leaf (Table.leaf?_eq_some.mpr ⟨hef, hev⟩) hdf hp
  have hkey : e.1 = d.1 := segments_inj hseg
  have hval : e.2 = d.2 := by
    rw [hkey, hdf] at hef
    exact (Option.some.inj hef).symm
  exact Prod.ext hkey hval

theorem pairwise_leaves {s : Settings} (h : EntriesTidy Plain s.root) :
    s.leaves.Pairwise fun e d => ¬ segments e.1 <+: segments d.1 ∧ ¬ segments d.1 <+: segments e.1 := by
  have hn : s.leaves.Nodup := (nodup_leaf_keys h).of_map
  refine hn.imp_of_mem fun he hd hne => ⟨fun hp => hne ?_, fun hp => hne ?_⟩
  · exact eq_of_prefix_of_mem_leaves h he hd hp
  · exact (eq_of_prefix_of_mem_leaves h hd he hp).symm

/-- Without empty or dotted keys the cursor gives exactly what look-ups find, in the order of the plain
recursion, and then comes to its end. -/
theorem cursor_gives_lookups {s : Settings} (h : EntriesTidy Plain s.root) :
    s.items = s.leaves ∧ (∀ n, (s.cursor.advance n).next.1 = s.leaves[n]?) ∧
      (s.items.map Prod.fst).Nodup ∧
      (∀ key v, (key, v) ∈ s.items ↔ s.get? key = some v ∧ v.isTable = false) ∧
      s.items.Pairwise fun e d =>
        ¬ segments e.1 <+: segments d.1 ∧ ¬ segments d.1 <+: segments e.1 := by
  have hahead : s.cursor.ahead = s.leaves := by rw [← Cursor.toList_eq, ← items_eq, items]
  rw [items_eq]
  refine ⟨rfl, fun n => ?_, nodup_leaf_keys h, fun key v => mem_leaves_iff h, pairwise_leaves h⟩
  have hn := (Cursor.ahead_next (s.cursor.advance n)).1
  rw [hn, Cursor.ahead_advance, hahead, List.head?_drop]

/-- An empty table gives nothing, and the tables of a list are not opened. -/
theorem cursor_gives_lookups_nested :
    let s : Settings := ⟨[("a", .table [("b", .int 1), ("c", .table []),
      ("d", .table [("e", .str "x")])]), ("f", .array [.table [("g.h", .bool true)]])]⟩
    EntriesTidy Plain s.root ∧ s.items.map Prod.fst = ["a.b", "a.d.e", "f"] ∧
      (s.cursor.advance 3).next.1 = none ∧ s.get? "a.d.e" = some (.str "x") := by
  intro s
  have h : EntriesTidy Plain s.root := by simp [s, EntriesTidy, Value.Tidy, Plain]
  obtain ⟨hitems, hnth, -, hmem, -⟩ := cursor_gives_lookups h
  have hleaves : s.leaves = [("a.b", .int 1), ("a.d.e", .str "x"),
      ("f", .array [.table [("g.h", .bool true)]])] := by rfl
  refine ⟨h, ?_, ?_, ?_⟩
  · rw [hitems, hleaves]
    rfl
  · rw [hnth, hleaves]
    rfl
  · exact ((hmem "a.d.e" (.str "x")).mp (by simp [hitems, hleaves])).1

end Settings
end Interview
