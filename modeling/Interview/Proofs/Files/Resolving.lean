import Interview.Proofs.Text.Cutting
import Interview.Walk.Include

/-! Where a bare name leads, it stays: a directory in front of it makes it a path that is taken as it is.
So an included document is read from the very file that was looked for. -/

namespace Interview

namespace Path

variable {d p q : Path}

theorem pieces_of_isBare (h : p.isBare = true) :
    ∃ first rest, p.pieces = first :: rest ∧ isTrivial first = false ∧ ∀ piece ∈ rest, isTrivial piece := by
  obtain ⟨first, rest, hp⟩ := List.exists_cons_of_ne_nil (Text.cut_ne_nil '/' p.toList)
  change p.pieces = first :: rest at hp
  by_cases hempty : first = [] ∧ rest = []
  · simp [isBare, components, body, hp, hempty] at h
  have hbody : p.body = if isTrivial first then (some first, rest) else (none, first :: rest) := by
    unfold body
    rw [hp]
    split
    · next heq => cases heq
    · next heq => exact absurd (List.cons.inj heq) hempty
    · next heq => obtain ⟨rfl, rfl⟩ := List.cons.inj heq; rfl
  cases ht : isTrivial first with
  | true =>
    rw [ht, if_pos rfl] at hbody
    cases first <;> simp [isBare, components, hbody] at h
  | false =>
    rw [ht, if_neg Bool.false_ne_true] at hbody
    refine ⟨first, rest, hp, ht, ?_⟩
    have hnone : rest.filter (!isTrivial ·) = [] := by
      cases hf : rest.filter (!isTrivial ·) with
      | nil => rfl
      | cons piece more => simp [isBare, components, hbody, ht, hf] at h
    simpa using hnone

theorem isAbsolute_of_isBare (h : p.isBare = true) : p.isAbsolute = false := by
  obtain ⟨first, rest, hp, hf, -⟩ := pieces_of_isBare h
  cases hc : p.toList with
  | nil => simp [isAbsolute, hc]
  | cons c cs =>
    by_cases hslash : c = '/'
    · rw [pieces, hc, Text.cut, if_pos hslash] at hp
      rw [← (List.cons.inj hp).1] at hf
      cases hf
    · simp [isAbsolute, hc, hslash]

theorem isBare_of_pieces {before : List (List Char)} (hb : before ≠ [])
    (hq : q.pieces = before ++ p.pieces) (h : p.isBare = true) : q.isBare = false := by
  obtain ⟨first, rest, hp, hf, -⟩ := pieces_of_isBare h
  refine Bool.eq_false_iff.mpr fun hq' => ?_
  obtain ⟨first', rest', hpieces, -, htrivial⟩ := pieces_of_isBare hq'
  obtain ⟨piece, before, rfl⟩ := List.exists_cons_of_ne_nil hb
  have hrest : rest' = before ++ first :: rest := by
    rw [hpieces, hp] at hq
    exact (List.cons.inj hq).2
  have hfirst := htrivial first (by simp [hrest])
  rw [hf] at hfirst
  cases hfirst

theorem below_empty (p : Path) : below "" p = p := by
  simp [below]

theorem isBare_below (hd : d ≠ "") (h : p.isBare = true) : (below d p).isBare = false := by
  have hcut (cs : List Char) (hcs : (below d p).toList = cs ++ '/' :: p.toList) :
      (below d p).isBare = false :=
    isBare_of_pieces (Text.cut_ne_nil '/' cs) (by rw [pieces, hcs, Text.cut_append]; rfl) h
  have hne : d.isEmpty = false := by simpa using hd
  rw [below, isAbsolute_of_isBare h, hne, Bool.false_or] at hcut ⊢
  by_cases hlast : d.toList.getLast? = some '/'
  · obtain ⟨cs, hcs⟩ := List.getLast?_eq_some_iff.mp hlast
    exact hcut cs (by simp [hcs])
  · exact hcut d.toList (by simp [hlast])

end Path

namespace SearchPath

/-- A path leads to itself, or it is a bare name and leads to a place below one of the directories. -/
theorem resolve_cases (sp : SearchPath) (fs : FileSystem) (p : Path) :
    sp.resolve fs p = p ∨ p.isBare = true ∧ ∃ d, sp.resolve fs p = .below d p := by
  cases hp : p.isBare with
  | false => exact .inl (by simp [resolve, hp])
  | true =>
    obtain ⟨home, templates⟩ := sp
    simp only [resolve, hp, Bool.not_true, Bool.false_eq_true, if_false, true_and]
    cases home with
    | none =>
      cases templates with
      | none => exact .inl rfl
      | some templates =>
        dsimp only
        split
        · exact .inr ⟨templates, rfl⟩
        · exact .inl rfl
    | some home =>
      refine .inr ?_
      cases templates with
      | none => exact ⟨home, rfl⟩
      | some templates =>
        dsimp only
        split
        · exact ⟨home, rfl⟩
        · split
          · exact ⟨templates, rfl⟩
          · exact ⟨home, rfl⟩

theorem resolve_resolve (sp : SearchPath) (fs : FileSystem) (p : Path) :
    sp.resolve fs (sp.resolve fs p) = sp.resolve fs p := by
  rcases resolve_cases sp fs p with hp | ⟨hp, d, hd⟩
  · rw [hp, hp]
  · by_cases hempty : d = ""
    · rw [hempty, Path.below_empty] at hd
      rw [hd, hd]
    · rw [hd, resolve, Path.isBare_below hempty hp, Bool.not_false, if_pos rfl]

theorem document_resolve (sp : SearchPath) (fs : FileSystem) (p : Path) :
    sp.document fs (sp.resolve fs p) =
      match fs.readText (sp.resolve fs p) with
      | .ok text => Document.read (sp.resolve fs p) (.ofPath (sp.resolve fs p)) text
      | .error _ => .error (.inaccessible (sp.resolve fs p)) := by
  unfold document readText
  dsimp only
  rw [resolve_resolve]
  cases fs.readText (sp.resolve fs p) with
  | error fault => rfl
  | ok text => rfl

end SearchPath

namespace IncludeCache

/-- Opens the document in one file: it is this file that has to be there, that must not be open around the
place, and that is read. -/
def openFile (cache : IncludeCache) (fs : FileSystem) (file : Path) (place : WalkPath) :
    Except Error Opened :=
  if !fs.isFile file then .error (.includeNotFound file place)
  else if (cache.enclosingFiles place).contains (fs.canonical file) then
    .error (.includeCycle file place)
  else
    match fs.readText file with
    | .error _ => .error (.inaccessible file)
    | .ok text =>
      (Document.read file (.ofPath file) text).map fun d =>
        { included := ⟨fs.canonical file, d.nodes⟩
          unknownFields := d.unknownFields.map fun field => file ++ ": " ++ field
          events := d.unknownFields.map (Event.unknownIncludedField file) ++
            [.included file d.nodes.length place] }

/-- Looking up where a path leads a second time leads to the same place, whatever the directories are and
whatever is in them. So an include node opens one file, looked up once. -/
theorem openAt_resolved (sp : SearchPath) (fs : FileSystem) (p : Path) :
    sp.resolve fs (sp.resolve fs p) = sp.resolve fs p ∧
      ∀ (cache : IncludeCache) (n : Node) (place : WalkPath),
        cache.openAt sp fs { n with path := some p } place =
          cache.openFile fs (sp.resolve fs p) place := by
  refine ⟨sp.resolve_resolve fs p, fun cache n place => ?_⟩
  simp only [openAt, openFile, SearchPath.document_resolve, bind, Except.bind]
  split
  · rfl
  · split
    · rfl
    · cases fs.readText (sp.resolve fs p) with
      | error fault => rfl
      | ok text =>
        cases Document.read (sp.resolve fs p) (.ofPath (sp.resolve fs p)) text <;> rfl

end IncludeCache
end Interview
