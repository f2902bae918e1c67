import Interview.Files.FileSystem

/-! The paths of all files, link-free. There are as many as there are files, and a path that leads to a
file leads to one of them. -/

namespace Interview

namespace FileEntry

mutual

def filePlaces : FileEntry → List Place
  | .file _ => [[]]
  | .link _ => []
  | .directory entries => entriesFilePlaces entries

def entriesFilePlaces : List (String × FileEntry) → List Place
  | [] => []
  | (name, entry) :: rest => entry.filePlaces.map (name :: ·) ++ entriesFilePlaces rest

end

mutual

theorem length_filePlaces (entry : FileEntry) : entry.filePlaces.length = entry.fileCount := by
  match entry with
  | .file _ => simp only [filePlaces, fileCount, List.length_singleton]
  | .link _ => simp only [filePlaces, fileCount, List.length_nil]
  | .directory entries => simp only [filePlaces, fileCount, length_entriesFilePlaces entries]

theorem length_entriesFilePlaces (entries : List (String × FileEntry)) :
    (entriesFilePlaces entries).length = entriesFileCount entries := by
  match entries with
  | [] => simp only [entriesFilePlaces, entriesFileCount, List.length_nil]
  | (name, entry) :: rest =>
    simp only [entriesFilePlaces, entriesFileCount, List.length_append, List.length_map,
      length_filePlaces entry, length_entriesFilePlaces rest]

end

theorem mem_entriesFilePlaces {name : String} {entry : FileEntry} {place : Place}
    (hp : place ∈ entry.filePlaces) {entries : List (String × FileEntry)}
    (h : lookup? name entries = some entry) : name :: place ∈ entriesFilePlaces entries := by
  induction entries with
  | nil => cases h
  | cons e rest ih =>
    obtain ⟨k, e⟩ := e
    simp only [entriesFilePlaces, List.mem_append]
    simp only [lookup?] at h
    split at h
    · next hk =>
      subst hk
      cases h
      exact .inl (List.mem_map_of_mem hp)
    · exact .inr (ih h)

theorem mem_filePlaces {place : Place} {entry : FileEntry} {content : ByteArray}
    (h : find? place entry = some (.file content)) : place ∈ entry.filePlaces := by
  induction place generalizing entry with
  | nil =>
    obtain rfl : entry = .file content := by simpa only [find?, Option.some.injEq] using h
    simp only [filePlaces, List.mem_singleton]
  | cons name rest ih =>
    cases entry with
    | file _ => simp [find?] at h
    | link _ => simp [find?] at h
    | directory entries =>
      obtain ⟨e, he, h⟩ := Option.bind_eq_some_iff.mp h
      simpa only [filePlaces] using mem_entriesFilePlaces (ih h) he

end FileEntry

namespace FileSystem

def filePaths (fs : FileSystem) : List Path := (FileEntry.entriesFilePlaces fs.top).map placePath

theorem length_filePaths (fs : FileSystem) : fs.filePaths.length = fs.fileCount := by
  rw [filePaths, List.length_map, FileEntry.length_entriesFilePlaces, fileCount]

theorem canonical_mem_filePaths {fs : FileSystem} {p : Path} (h : fs.isFile p = true) :
    fs.canonical p ∈ fs.filePaths := by
  unfold isFile find? at h
  unfold canonical
  cases hl : fs.locate p with
  | error fault => simp [hl] at h
  | ok place =>
    simp only [hl] at h
    cases he : fs.entry? place with
    | none => simp [he] at h
    | some entry =>
      cases entry with
      | link _ => simp [he] at h
      | directory _ => simp [he] at h
      | file content =>
        have hm := FileEntry.mem_filePlaces he
        rw [root, FileEntry.filePlaces] at hm
        exact List.mem_map_of_mem hm

end FileSystem
end Interview
