import Interview.Settings.Basic

/-! The leaves of a store one at a time. A cursor keeps the tables that are open, the innermost first,
each with its key and the entries still to be read. -/

namespace Interview

structure Cursor where
  opened : List (String × Table)

namespace Cursor

/-- What is left to be read in open tables: every entry, and the end of every table. -/
noncomputable def unread : List (String × Table) → Nat
  | [] => 0
  | e :: outer => sizeOf e.2 + 1 + unread outer

noncomputable def size (c : Cursor) : Nat := unread c.opened

theorem size_cons (e : String × Table) (outer : List (String × Table)) :
    size ⟨e :: outer⟩ = sizeOf e.2 + 1 + size ⟨outer⟩ := rfl

/-- The next leaf with its key, and the cursor behind it. Tables are opened and closed on the way. -/
def next : Cursor → Option (String × Value) × Cursor
  | ⟨[]⟩ => (none, ⟨[]⟩)
  | ⟨(_, []) :: outer⟩ => next ⟨outer⟩
  | ⟨(parent, (k, .table nested) :: rest) :: outer⟩ =>
    next ⟨(Key.below parent k, nested) :: (parent, rest) :: outer⟩
  | ⟨(parent, (k, leaf) :: rest) :: outer⟩ =>
    (some (Key.below parent k, leaf), ⟨(parent, rest) :: outer⟩)
termination_by c => c.size
decreasing_by
  · simp [size_cons]
  · simp [size_cons]
    omega

theorem size_next {c : Cursor} {e : String × Value} (h : c.next.1 = some e) :
    c.next.2.size < c.size := by
  fun_induction next c with
  | case1 => cases h
  | case2 key outer ih =>
    have hlt := ih h
    simp only [size_cons]
    omega
  | case3 parent k nested rest outer ih =>
    have hlt := ih h
    simp only [size_cons, List.cons.sizeOf_spec, Prod.mk.sizeOf_spec,
      Value.table.sizeOf_spec] at hlt ⊢
    omega
  | case4 parent k leaf rest outer hleaf =>
    simp only [size_cons, List.cons.sizeOf_spec]
    omega

def toList (c : Cursor) : List (String × Value) :=
  match h : c.next with
  | (none, _) => []
  | (some e, behind) =>
    have hlt : behind.size < c.size := by
      have hs := size_next (c := c) (e := e) (by rw [h])
      rwa [h] at hs
    e :: behind.toList
termination_by c.size

end Cursor

namespace Settings

def cursor (s : Settings) : Cursor := ⟨[("", s.root)]⟩

def items (s : Settings) : List (String × Value) := s.cursor.toList

end Settings
end Interview
