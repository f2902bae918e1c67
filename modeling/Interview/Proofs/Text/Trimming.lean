import Interview.Text.Blank
import Mathlib.Data.List.TakeWhile

/-! What trimming leaves of a text: all from the first to the last character that is not blank, and
nothing where there is none. -/

namespace Interview.Text

variable {c : Char} {cs bs : List Char}

theorem trimStart_blank_append (hb : ∀ b ∈ bs, isBlank b = true) (cs : List Char) :
    trimStart (bs ++ cs) = trimStart cs :=
  List.dropWhile_append_of_pos hb

theorem trimEnd_append_blank (hb : ∀ b ∈ bs, isBlank b = true) (cs : List Char) :
    trimEnd (cs ++ bs) = trimEnd cs := by
  have hreverse : ∀ b ∈ bs.reverse, isBlank b = true := fun b h => hb b (List.mem_reverse.mp h)
  rw [trimEnd, dropEndWhile, List.reverse_append, List.dropWhile_append_of_pos hreverse]
  rfl

theorem trimEnd_of_blank (hb : ∀ b ∈ bs, isBlank b = true) : trimEnd bs = [] :=
  trimEnd_append_blank hb []

theorem trimEnd_append_cons (hc : isBlank c = false) (as cs : List Char) :
    trimEnd (as ++ c :: cs) = as ++ c :: trimEnd cs := by
  by_cases hcs : cs.reverse.dropWhile isBlank = []
  · simp [trimEnd, dropEndWhile, List.dropWhile_append, hcs, hc]
  · simp [trimEnd, dropEndWhile, List.dropWhile_append, hcs]

theorem trim_eq_nil_iff : trim cs = [] ↔ ∀ c ∈ cs, isBlank c = true := by
  constructor
  · intro h c hc
    by_contra hb
    rw [Bool.not_eq_true] at hb
    obtain ⟨before, after, rfl⟩ := List.append_of_mem hc
    have hstart : ∃ before', trimStart (before ++ c :: after) = before' ++ c :: after := by
      by_cases hall : before.dropWhile isBlank = []
      · exact ⟨[], by simp [trimStart, List.dropWhile_append, hall, hb]⟩
      · exact ⟨_, by simp [trimStart, List.dropWhile_append, hall]; rfl⟩
    obtain ⟨before', hstart⟩ := hstart
    rw [trim, hstart, trimEnd_append_cons hb] at h
    simp at h
  · intro h
    have hstart : trimStart cs = [] := List.dropWhile_eq_nil_iff.mpr h
    rw [trim, hstart]
    rfl

theorem trim_ne_nil (hc : c ∈ cs) (hb : isBlank c = false) : trim cs ≠ [] := by
  intro h
  have hblank := trim_eq_nil_iff.mp h c hc
  simp [hb] at hblank

section Solid

variable (hs : ∀ c ∈ cs, isBlank c = false) (hne : cs ≠ [])
include hs hne

theorem trimStart_solid_append (rest : List Char) : trimStart (cs ++ rest) = cs ++ rest := by
  obtain ⟨c, more, rfl⟩ := List.exists_cons_of_ne_nil hne
  have hc : isBlank c = false := hs c List.mem_cons_self
  simp [trimStart, hc]

theorem trimEnd_append_solid (as : List Char) : trimEnd (as ++ cs) = as ++ cs := by
  have hlast : isBlank (cs.getLast hne) = false := hs _ (List.getLast_mem hne)
  have happ : as ++ cs = (as ++ cs.dropLast) ++ cs.getLast hne :: [] := by
    rw [List.append_assoc, List.dropLast_concat_getLast hne]
  rw [happ, trimEnd_append_cons hlast]
  rfl

theorem trim_spaced {before after : List Char} (hb : ∀ c ∈ before, isBlank c = true)
    (ha : ∀ c ∈ after, isBlank c = true) : trim (before ++ cs ++ after) = cs := by
  rw [List.append_assoc, trim, trimStart_blank_append hb, trimStart_solid_append hs hne,
    trimEnd_append_blank ha]
  exact trimEnd_append_solid hs hne []

end Solid

theorem trim_of_no_blank (h : ∀ c ∈ cs, isBlank c = false) : trim cs = cs := by
  by_cases hne : cs = []
  · rw [hne]
    rfl
  · simpa using trim_spaced h hne (List.forall_mem_nil _) (List.forall_mem_nil _)

end Interview.Text
