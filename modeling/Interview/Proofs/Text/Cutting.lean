import Interview.Text.Blank

/-! Text cut at a separator, and put together again. No piece holds the separator, and the pieces of a text
before it and after it are those of the whole. A prefix is cut off where the text starts with it. -/

namespace Interview.Text

theorem cut_of_not_mem {sep : Char} {cs : List Char} (h : sep ∉ cs) : cut sep cs = [cs] := by
  induction cs with
  | nil => rfl
  | cons c cs ih =>
    have hc : c ≠ sep := fun hc => h (by simp [hc])
    simp [cut, hc, ih fun hs => h (List.mem_cons_of_mem c hs)]

theorem not_mem_of_mem_cut {sep : Char} {cs piece : List Char} (h : piece ∈ cut sep cs) :
    sep ∉ piece := by
  induction cs generalizing piece with
  | nil =>
    obtain rfl : piece = [] := by simpa [cut] using h
    simp
  | cons c cs ih =>
    by_cases hc : c = sep
    · rw [cut, if_pos hc] at h
      rcases List.mem_cons.mp h with rfl | h
      · simp
      · exact ih h
    · obtain ⟨first, rest, hr⟩ := List.exists_cons_of_ne_nil (cut_ne_nil sep cs)
      rw [hr] at ih
      simp only [cut, if_neg hc, hr] at h
      rcases List.mem_cons.mp h with rfl | h
      · have hf := ih (List.mem_cons_self (a := first))
        simpa [hf] using Ne.symm hc
      · exact ih (List.mem_cons_of_mem first h)

theorem cut_append (sep : Char) (cs rest : List Char) :
    cut sep (cs ++ sep :: rest) = cut sep cs ++ cut sep rest := by
  induction cs with
  | nil => simp [cut]
  | cons c cs ih =>
    by_cases hc : c = sep
    · simp [cut, hc, ih]
    · obtain ⟨first, more, hr⟩ := List.exists_cons_of_ne_nil (cut_ne_nil sep cs)
      simp [cut, hc, ih, hr]

theorem cut_join {sep : Char} {pieces : List (List Char)} (hne : pieces ≠ []) :
    cut sep (join [sep] pieces) = pieces.flatMap (cut sep) := by
  induction pieces with
  | nil => exact absurd rfl hne
  | cons piece rest ih =>
    cases rest with
    | nil => simp [join]
    | cons next rest =>
      have hr := ih (by simp)
      simp only [join, List.append_assoc, List.singleton_append, cut_append, hr, List.flatMap_cons]

theorem join_append_singleton {sep : List Char} {pieces : List (List Char)} (hne : pieces ≠ [])
    (last : List Char) : join sep (pieces ++ [last]) = join sep pieces ++ sep ++ last := by
  induction pieces with
  | nil => exact absurd rfl hne
  | cons piece rest ih =>
    cases rest with
    | nil => rfl
    | cons next rest =>
      have hr := ih (by simp)
      simp only [List.cons_append] at hr
      simp only [List.cons_append, join, hr, List.append_assoc]

theorem stripPrefix?_eq_some {p cs rest : List Char} :
    stripPrefix? p cs = some rest ↔ cs = p ++ rest := by
  induction p generalizing cs with
  | nil => simp [stripPrefix?]
  | cons c p ih =>
    cases cs with
    | nil => simp [stripPrefix?]
    | cons d cs =>
      by_cases hc : c = d
      · simp [stripPrefix?, hc, ih]
      · simp [stripPrefix?, hc, Ne.symm hc]

theorem stripPrefix?_isSome {p cs : List Char} : (stripPrefix? p cs).isSome ↔ p <+: cs := by
  rw [Option.isSome_iff_exists]
  constructor
  · rintro ⟨rest, h⟩
    exact ⟨rest, (stripPrefix?_eq_some.mp h).symm⟩
  · rintro ⟨rest, h⟩
    exact ⟨rest, stripPrefix?_eq_some.mpr h.symm⟩

end Interview.Text
