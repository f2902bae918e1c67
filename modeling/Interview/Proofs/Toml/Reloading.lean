import Interview.Proofs.Toml.Mirroring
import Interview.Settings.File

/-! Documents read back after a store was written over them. Reading and printing are those of a codec,
of which nothing is asked but that a printed document reads as what it shows. -/

namespace Interview.Toml

open Interview.Key (Plain segments)

/-- The reader and the printer of documents, and the reader of their data. -/
structure Codec where
  read? : List Char → Option Layout
  print : Layout → List Char
  decode? : List Char → Option Table

namespace Codec

def standard : Codec where
  read? := Toml.read?
  print := Layout.text
  decode? cs := (Format.toml.readEntries? cs).bind Raw.table?

variable (c : Codec)

def render? (existing : Option String) (store : Settings) : Option String :=
  (c.read? (existing.getD "").toList).map fun l => String.ofList (c.print (l.patched store))

/-- A blank text is an empty document. -/
def content? (cs : List Char) : Option Table :=
  if (Text.trim cs).isEmpty then some [] else c.decode? cs

def parse (path : Path) (text : String) : Except Error Settings :=
  match c.content? text.toList with
  | some t => Settings.ofDotted t
  | none => .error (.unparsable path none)

theorem standard_render (existing : Option String) (store : Settings) :
    store.render .toml existing =
      match standard.render? existing store with
      | some text => .ok text
      | none => .error .unserializable := by
  simp only [Settings.render, Toml.render?, render?, standard]
  cases Toml.read? (existing.getD "").toList <;> rfl

theorem standard_parse (path : Path) (text : String) :
    Settings.parse path .toml text = standard.parse path text := by
  simp only [Settings.parse, parse, content?]
  split
  · rfl
  · rfl

end Codec

variable {store : Settings} {l : Layout}

theorem forall_leaves {p : List String → Value → Prop} (h : EntriesTidy Plain store.root) :
    (∀ e ∈ store.leaves, p (segments e.1) e.2) ↔
      ∀ path v, store.root.leaf? path = some v → p path v := by
  constructor
  · intro hall path v hl
    obtain ⟨hn, hp⟩ := Table.names_of_find? h (Table.leaf?_eq_some.mp hl).1
    have hm : (Interview.Key.ofSegments path, v) ∈ store.leaves := by
      rw [Settings.leaves_eq h, List.mem_map]
      exact ⟨(path, v), (mem_entryPaths h).mpr hl, rfl⟩
    simpa only [Interview.Key.segments_ofSegments hn hp] using hall _ hm
  · intro hall e he
    obtain ⟨path, hn, hp, hk, hl⟩ := Settings.path_of_mem_leaves h he
    rw [← hk, Interview.Key.segments_ofSegments hn hp]
    exact hall path e.2 hl

/-- The parts of a document that are printed one after the other, in the order of its entries. -/
def Layout.sections (l : Layout) : List Section := ((Item.table l.root l.entries).sections [] false 0).1

def Layout.textInOrder (l : Layout) : List Char :=
  (sectionsText true l.sections ++ l.trailing).filter (· != '\r')

/-- Parts that stand in the order of their positions are printed as they stand. -/
theorem Layout.text_eq_textInOrder (h : l.sections.Pairwise (·.position ≤ ·.position)) :
    l.text = l.textInOrder := by
  have hsorted : l.sections.mergeSort (fun a b => a.position ≤ b.position) = l.sections :=
    List.mergeSort_of_pairwise (h.imp decide_eq_true)
  rw [Layout.text, Layout.textInOrder]
  exact congrArg (fun s => (sectionsText true s ++ l.trailing).filter (· != '\r')) hsorted

theorem Codec.parse_printed_iff {c : Codec} (path : Path) (hstore : EntriesTidy Plain store.root)
    (hshows : ∀ t, c.content? (c.print (l.patched store)) = some t → Shows t (l.patched store)) :
    (∃ again, c.parse path (String.ofList (c.print (l.patched store))) = .ok again ∧
        again.SameLeaves store) ↔
      ∃ t, c.content? (c.print (l.patched store)) = some t ∧ EntriesTidy (· ≠ "") t ∧
        ∀ e ∈ store.leaves, SpelledOnce (l.kept store) (segments e.1) e.2 := by
  rw [forall_leaves hstore, Codec.parse, String.toList_ofList]
  cases hc : c.content? (c.print (l.patched store)) with
  | none => simp
  | some t =>
    have hrebuilds := (hshows t hc).rebuilds_iff hstore
    simpa only [Option.some.injEq, exists_eq_left'] using hrebuilds

theorem Codec.render?_of_read {c : Codec} {existing : Option String}
    (hread : c.read? (existing.getD "").toList = some l) :
    c.render? existing store = some (String.ofList (c.print (l.patched store))) := by
  rw [Codec.render?, hread, Option.map_some]

/-- A store comes back from the document it was written over exactly if the text still holds data, no
key of it is empty and every leaf is spelled once. -/
theorem reloads_iff {c : Codec} {existing : Option String} (path : Path)
    (hread : c.read? (existing.getD "").toList = some l) (hstore : EntriesTidy Plain store.root)
    (hshows : ∀ t, c.content? (c.print (l.patched store)) = some t → Shows t (l.patched store)) :
    (∃ text again, c.render? existing store = some text ∧ c.parse path text = .ok again ∧
        again.SameLeaves store) ↔
      ∃ t, c.content? (c.print (l.patched store)) = some t ∧ EntriesTidy (· ≠ "") t ∧
        ∀ e ∈ store.leaves, SpelledOnce (l.kept store) (segments e.1) e.2 := by
  rw [← Codec.parse_printed_iff path hstore hshows, Codec.render?_of_read hread]
  simp only [Option.some.injEq, exists_and_left, exists_eq_left']

def mixedText : String := "# b\np.q = 1\ni = \x7ba = 1, b = 2\x7d\n[s]\nx = 1 # one\nz = 0\n"

def mixedStore : Settings :=
  ⟨[("p", .table [("q", .int 3)]), ("i", .table [("a", .int 4)]),
    ("s", .table [("x", .int 2), ("t", .table [("y", .int 5)])])]⟩

/-- What the store keeps of the text: a dotted key, a key of an inline table and a key below a header. -/
def mixedKept : Table :=
  [("p", .table [("q", .int 1)]), ("i", .table [("a", .int 1)]), ("s", .table [("x", .int 1)])]

def mixedPrinted : String :=
  "# b\np.q = 3\ni = \x7ba = 4\x7d\n[s]\nx = 2 # one\n\n[s.t]\ny = 5\n"

/-- Values that are changed in three kinds of tables come back, beside comments that stay, keys that go and
a table that is new. -/
theorem reloads_beside_comment : ∃ again,
    Codec.standard.render? (some mixedText) mixedStore = some mixedPrinted ∧
      Codec.standard.parse "" mixedPrinted = .ok again ∧ again.SameLeaves mixedStore := by
  have hchecked : (read? mixedText.toList).any (fun l =>
      mirrors false (l.kept mixedStore) mixedKept &&
        mixedStore.leaves.all (fun e => roomFor false (segments e.1) (l.kept mixedStore)) &&
        decide ((l.patched mixedStore).sections.Pairwise (·.position ≤ ·.position)) &&
        ((l.patched mixedStore).textInOrder == mixedPrinted.toList)) = true := by
    decide +kernel
  have hcontent : (Codec.standard.content? mixedPrinted.toList).any (fun t =>
      (read? mixedText.toList).any fun l => mirrors false (l.patched mixedStore).entries t) = true := by
    decide +kernel
  obtain ⟨l, hl, hpatched⟩ := (Option.any_eq_true _ _).mp hchecked
  simp only [Bool.and_eq_true, List.all_eq_true, decide_eq_true_eq, beq_iff_eq] at hpatched
  obtain ⟨⟨⟨hkept, hroom⟩, hordered⟩, hprinted⟩ := hpatched
  obtain ⟨t, ht, hshown⟩ := (Option.any_eq_true _ _).mp hcontent
  rw [hl] at hshown
  have hmirrors : mirrors false (l.patched mixedStore).entries t = true := hshown
  have hprint : Codec.standard.print (l.patched mixedStore) = mixedPrinted.toList :=
    (Layout.text_eq_textInOrder hordered).trans hprinted
  have hread : Codec.standard.read? ((some mixedText).getD "").toList = some l := hl
  have hstore : EntriesTidy Plain mixedStore.root := by
    simp [mixedStore, EntriesTidy, Value.Tidy, Plain]
  have hplain : EntriesTidy Plain mixedKept := by simp [mixedKept, EntriesTidy, Value.Tidy, Plain]
  have hshows (u : Table)
      (hu : Codec.standard.content? (Codec.standard.print (l.patched mixedStore)) = some u) :
      Shows u (l.patched mixedStore) := by
    rw [hprint, ht] at hu
    obtain rfl := Option.some.inj hu
    exact shows_of_mirrors hmirrors
  have honce : ∀ e ∈ mixedStore.leaves, SpelledOnce (l.kept mixedStore) (segments e.1) e.2 :=
    fun e he => (spelledOnce_iff_of_mirrors hkept hplain _ _).mpr (hroom e he)
  obtain ⟨text, again, hrender, hparse, hsame⟩ := (reloads_iff "" hread hstore hshows).mpr
    ⟨t, by rw [hprint, ht], tidy_of_mirrors hmirrors, honce⟩
  have htext : Codec.standard.render? (some mixedText) mixedStore = some mixedPrinted := by
    rw [Codec.render?_of_read hread, hprint, String.ofList_toList]
  obtain rfl := Option.some.inj (hrender.symm.trans htext)
  exact ⟨again, hrender, hparse, hsame⟩

/-- An empty inline table takes in no table with a header: the leaf below it is lost. -/
theorem not_reloads_below_inline_table :
    ¬ ∃ text again,
      Codec.standard.render? (some "a = {}\n") ⟨[("a", .table [("b", .table [("c", .int 2)])])]⟩ =
          some text ∧
        Codec.standard.parse "" text = .ok again ∧
        again.SameLeaves ⟨[("a", .table [("b", .table [("c", .int 2)])])]⟩ := by
  rintro ⟨text, again, ht, hp, hs⟩
  have htext : Codec.standard.render? (some "a = {}\n")
      ⟨[("a", .table [("b", .table [("c", .int 2)])])]⟩ = some "a = {}\n" := by decide +kernel
  have hlost : (Codec.standard.parse "" "a = {}\n").toOption.all (·.leaves.isEmpty) = true := by
    decide +kernel
  obtain rfl := Option.some.inj (htext.symm.trans ht)
  rw [hp] at hlost
  have hl := List.isEmpty_iff.mp (by simpa [Except.toOption] using hlost)
  rw [Settings.SameLeaves, hl] at hs
  have hlen := hs.length_eq
  simp [Settings.leaves, entryLeaves, Value.leaves] at hlen

/-- With the program's own printer and reader the settings come back from their file on the same
conditions. -/
theorem settings_reload_iff {existing : Option String} (path : Path)
    (hread : read? (existing.getD "").toList = some l) (hstore : EntriesTidy Plain store.root)
    (hshows : ∀ t, Codec.standard.content? (l.patched store).text = some t →
      Shows t (l.patched store)) :
    (∃ text again, store.render .toml existing = .ok text ∧
        Settings.parse path .toml text = .ok again ∧ again.SameLeaves store) ↔
      ∃ t, Codec.standard.content? (l.patched store).text = some t ∧ EntriesTidy (· ≠ "") t ∧
        ∀ e ∈ store.leaves, SpelledOnce (l.kept store) (segments e.1) e.2 := by
  have hprinted := Codec.parse_printed_iff (c := .standard) path hstore hshows
  rw [Codec.standard_render, Codec.render?_of_read (c := .standard) hread]
  simp only [Except.ok.injEq, exists_and_left, exists_eq_left', Codec.standard_parse]
  exact hprinted

end Interview.Toml
