import Interview.Proofs.Walk.Openings
import Mathlib.Data.List.Infix
import Mathlib.Data.List.Perm.Subperm

/-! Included documents below included documents. A file is never opened below itself, whatever the passes
and examinations were that filled the cache, and so an examination comes to an end: it cannot go down
further than there are places in the cache and files to open. -/

namespace Interview

theorem Document.read_error {path : Path} {format : Format} {text : String} {e : Error}
    (h : read path format text = .error e) : ∃ file reason, e = .unparsable file reason := by
  unfold read ofRaw at h
  dsimp only at h
  split at h
  · cases h
  · split at h
    · split at h
      · exact ⟨_, _, (Except.error.inj h).symm⟩
      · split at h
        · cases h
        · exact ⟨_, _, (Except.error.inj h).symm⟩
      · exact ⟨_, _, (Except.error.inj h).symm⟩
    · exact ⟨_, _, (Except.error.inj h).symm⟩

theorem SearchPath.document_error {sp : SearchPath} {fs : FileSystem} {path : Path} {e : Error}
    (h : sp.document fs path = .error e) :
    (∃ file, e = .inaccessible file) ∨ ∃ file reason, e = .unparsable file reason := by
  unfold document readText at h
  dsimp only at h
  split at h
  · exact .inr (Document.read_error h)
  · exact .inl ⟨_, (Except.error.inj h).symm⟩

theorem pairwise_inits {α : Type} (l : List α) : l.inits.Pairwise fun a b => a <+: b ∧ a ≠ b := by
  induction l with
  | nil => simp
  | cons x l ih =>
    rw [List.inits_cons, List.pairwise_cons, List.pairwise_map]
    refine ⟨fun b hb => ?_, ih.imp fun hab => ?_⟩
    · obtain ⟨c, -, rfl⟩ := List.mem_map.mp hb
      simp
    · simpa using hab

namespace IncludeCache

/-- The files of the included documents at and above a place, outermost first. -/
def filesTo (cache : IncludeCache) (place : WalkPath) : List Path :=
  place.inits.filterMap fun at_ => (cache.find? at_).map Included.file

theorem mem_filesTo {cache : IncludeCache} {place : WalkPath} {file : Path} :
    file ∈ cache.filesTo place ↔
      ∃ at_ inc, at_ <+: place ∧ cache.find? at_ = some inc ∧ inc.file = file := by
  simp [filesTo]

/-- The files open around a place are the document's own and those of the places on the way to it. -/
theorem mem_enclosingFiles_iff {cache : IncludeCache} {file : Path} {place : WalkPath}
    (hroot : cache.find? [] = none) :
    file ∈ cache.enclosingFiles place ↔ cache.root = some file ∨
      ∃ above inc, above <+: place ∧ above ≠ place ∧ cache.find? above = some inc ∧ inc.file = file := by
  rcases List.eq_nil_or_concat place with rfl | ⟨parent, i, rfl⟩
  · simp [enclosingFiles, ancestors]
  · rw [List.concat_eq_append, mem_enclosingFiles]
    refine or_congr Iff.rfl ⟨?_, ?_⟩
    · rintro ⟨above, inc, -, hp, hi, hf⟩
      have hl := hp.length_le
      refine ⟨above, inc, hp.trans (List.prefix_append _ _), fun he => ?_, hi, hf⟩
      rw [he, List.length_append, List.length_singleton] at hl
      omega
    · rintro ⟨above, inc, hp, hne, hi, hf⟩
      have hnil : above ≠ [] := by
        rintro rfl
        simp [hroot] at hi
      exact ⟨above, inc, hnil, (List.prefix_concat_iff.mp hp).resolve_left hne, hi, hf⟩

theorem openAt_cycle_iff {cache : IncludeCache} {sp : SearchPath} {fs : FileSystem} {n : Node}
    {place : WalkPath} {path : Path} (hp : n.path = some path)
    (hf : fs.isFile (sp.resolve fs path) = true) :
    (∃ file at_, cache.openAt sp fs n place = .error (.includeCycle file at_)) ↔
      fs.canonical (sp.resolve fs path) ∈ cache.enclosingFiles place := by
  unfold openAt
  simp only [hp, bind, Except.bind, hf, Bool.not_true, Bool.false_eq_true, if_false]
  by_cases ho : fs.canonical (sp.resolve fs path) ∈ cache.enclosingFiles place
  · simp [ho]
  · simp only [ho, iff_false, List.contains_eq_mem, decide_false, Bool.false_eq_true, if_false]
    rintro ⟨file, at_, he⟩
    cases hd : sp.document fs (sp.resolve fs path) with
    | ok d => simp [hd] at he
    | error e =>
      rcases SearchPath.document_error hd with ⟨_, rfl⟩ | ⟨_, _, rfl⟩ <;> simp [hd] at he

end IncludeCache

namespace Walk

variable {sp : SearchPath} {fs : FileSystem} {doc : List Node}

/-- A cache whose documents stand at include nodes of the tree, none of them below itself. -/
structure Nested (doc : List Node) (cache : IncludeCache) : Prop where
  stands : ∀ place inc, cache.find? place = some inc →
    ∃ n, Stands cache doc place n ∧ n.kindAt place = .ok .inclusion
  root : ∀ place inc, cache.find? place = some inc → cache.root ≠ some inc.file
  above : ∀ place inc above a, cache.find? place = some inc → cache.find? above = some a →
    above <+: place → above ≠ place → a.file ≠ inc.file

namespace Nested

variable {old new cache : IncludeCache}

theorem empty (fs : FileSystem) (root : Option Path) : Nested doc (.rootedAt fs root) := by
  have hnone (place : WalkPath) (inc : Included) :
      (IncludeCache.rootedAt fs root).find? place ≠ some inc := by
    intro h
    cases h
  exact ⟨fun place inc h => absurd h (hnone place inc), fun place inc h => absurd h (hnone place inc),
    fun place inc _ _ h => absurd h (hnone place inc)⟩

theorem find?_nil (h : Nested doc cache) : cache.find? [] = none := by
  cases hf : cache.find? [] with
  | none => rfl
  | some inc =>
    obtain ⟨n, hs, -⟩ := h.stands [] inc hf
    exact absurd rfl hs.ne_nil

theorem opens {fresh : WalkPath → Prop} (h : Nested doc old) (ho : Opens sp fs doc fresh old new) :
    Nested doc new := by
  have hg := ho.grown
  obtain ⟨hfresh, hs, hk, hc, hopen⟩ := ho
  rename_i place n o
  have hnone : old.find? place = none := IncludeCache.find?_eq_none.mpr hc
  have hfile := (IncludeCache.openAt_eq_ok hopen).2
  rw [IncludeCache.mem_enclosingFiles_iff h.find?_nil] at hfile
  refine ⟨fun at_ inc hi => ?_, fun at_ inc hi => ?_, fun at_ inc above a hi ha hp hne => ?_⟩
  · rcases IncludeCache.find?_add hi with hold | ⟨rfl, rfl⟩
    · obtain ⟨m, hm, hkind⟩ := h.stands at_ inc hold
      exact ⟨m, hm.grown hg, hkind⟩
    · exact ⟨n, hs.grown hg, hk⟩
  · rcases IncludeCache.find?_add hi with hold | ⟨rfl, rfl⟩
    · exact h.root at_ inc hold
    · exact fun hr => hfile (.inl hr)
  · rcases IncludeCache.find?_add hi with hold | ⟨rfl, rfl⟩
    · rcases IncludeCache.find?_add ha with habove | ⟨rfl, -⟩
      · exact h.above at_ inc above a hold habove hp hne
      · -- nothing stood below the new place while it was not opened
        obtain ⟨m, hm, -⟩ := h.stands at_ inc hold
        have hopened := hm.opened_above hp hne hs hk
        simp [hc] at hopened
    · rcases IncludeCache.find?_add ha with habove | ⟨rfl, -⟩
      · exact fun he => hfile (.inr ⟨above, a, hp, hne, habove, he⟩)
      · exact absurd rfl hne

theorem explores {fresh : WalkPath → Prop} (h : Nested doc old)
    (hx : Explores sp fs doc fresh old new) : Nested doc new := by
  induction hx with
  | refl => exact h
  | tail _ hs ih => exact ih.opens hs

end Nested

/-- The progress of an interview, from its beginning on: passes and examinations with whatever files
there are at the time, and between them anything that leaves the cache alone. -/
inductive Explored (doc : List Node) : Progress → Prop
  | fresh (fs : FileSystem) (root : Option Path) (store : Settings) (log : List Event) :
    Explored doc ⟨store, .rootedAt fs root, log⟩
  | between {p q : Progress} : Explored doc p → q.includes = p.includes → Explored doc q
  | scanned {p : Progress} (sp : SearchPath) (fs : FileSystem) :
    Explored doc p → Explored doc ((scan sp fs doc).exec p).2
  | checked {p : Progress} (sp : SearchPath) (fs : FileSystem) :
    Explored doc p → Explored doc ((check sp fs doc).exec p).2

theorem Explored.nested {p : Progress} (h : Explored doc p) : Nested doc p.includes := by
  induction h with
  | fresh fs root => exact .empty fs root
  | between _ he ih => exact he ▸ ih
  | scanned sp fs _ ih => exact ih.explores (scan_explores sp fs doc _)
  | checked sp fs _ ih => exact ih.explores (check_explores sp fs doc _)

/-- On the way to a place no file is opened twice, and none is the document's own. -/
theorem Nested.nodup_files {cache : IncludeCache} (h : Nested doc cache) (place : WalkPath) :
    (cache.root.toList ++ cache.filesTo place).Nodup := by
  have hfiles : (cache.filesTo place).Nodup := by
    rw [IncludeCache.filesTo, List.Nodup, List.pairwise_filterMap]
    refine (pairwise_inits place).imp ?_
    rintro above at_ ⟨hp, hne⟩ file hf file' hf'
    obtain ⟨a, ha, rfl⟩ := Option.map_eq_some_iff.mp hf
    obtain ⟨inc, hi, rfl⟩ := Option.map_eq_some_iff.mp hf'
    exact h.above at_ inc above a hi ha hp hne
  refine List.nodup_append.mpr ⟨?_, hfiles, fun file hr file' hf => ?_⟩
  · cases cache.root <;> simp
  · obtain ⟨at_, inc, -, hi, rfl⟩ := IncludeCache.mem_filesTo.mp hf
    rintro rfl
    exact h.root at_ inc hi (Option.mem_toList.mp hr)

theorem Explores.mem_filePaths {fresh : WalkPath → Prop} {old new : IncludeCache}
    (h : Explores sp fs doc fresh old new) (ho : old.subtrees = []) {place : WalkPath} {inc : Included}
    (hi : new.find? place = some inc) : inc.file ∈ fs.filePaths := by
  induction h generalizing place inc with
  | refl =>
    rw [IncludeCache.find?, ho] at hi
    cases hi
  | tail _ hs ih =>
    obtain ⟨-, -, -, -, hopen⟩ := hs
    rcases IncludeCache.find?_add hi with hold | ⟨-, rfl⟩
    · exact ih hold
    · exact (IncludeCache.openAt_eq_ok hopen).1

theorem Explored.length_filesTo_le {p : Progress} (h : Explored doc p) (ho : p.includes.subtrees = [])
    (sp : SearchPath) (fs : FileSystem) (place : WalkPath) :
    (((check sp fs doc).exec p).2.includes.filesTo place).length ≤ fs.fileCount := by
  have hn := (h.checked sp fs).nested.nodup_files place
  have hsub : ((check sp fs doc).exec p).2.includes.filesTo place ⊆ fs.filePaths := by
    intro file hf
    obtain ⟨at_, inc, -, hi, rfl⟩ := IncludeCache.mem_filesTo.mp hf
    exact (check_explores sp fs doc p).mem_filePaths ho hi
  rw [← fs.length_filePaths]
  exact ((List.nodup_append.mp hn).2.1.subperm hsub).length_le

/-- The examination of the nodes of a document, with another walk in place of it below so many levels of
inclusion. -/
def checkUpTo (sp : SearchPath) (fs : FileSystem) (deeper : List Node → WalkPath → Walk Unit) :
    Nat → List Node → WalkPath → Walk Unit
  | 0 => deeper
  | levels + 1 => fun nodes parent => checkNodes sp fs (checkUpTo sp fs deeper levels) parent 0 nodes

section Levels

variable {deeper : List Node → WalkPath → Walk Unit}

theorem checkNode_congr {d d' : List Node → WalkPath → Walk Unit} {n : Node} {place : WalkPath}
    {p : Progress}
    (hb : n.kindAt place = .ok .branch →
      (checkNodes sp fs d place 0 (n.interview.getD [])).exec p =
        (checkNodes sp fs d' place 0 (n.interview.getD [])).exec p)
    (hi : n.kindAt place = .ok .inclusion → ∀ nodes q,
      (includedNodes sp fs n place).exec p = (.ok nodes, q) →
        (d nodes place).exec q = (d' nodes place).exec q) :
    (checkNode sp fs d place n).exec p = (checkNode sp fs d' place n).exec p := by
  rw [checkNode_eq, checkNode_eq, exec_bind, exec_bind, exec_lift]
  cases hk : n.kindAt place with
  | error e => rfl
  | ok kind =>
    cases kind with
    | branch =>
      dsimp only
      rw [exec_bind, exec_bind, hb hk]
    | inclusion =>
      dsimp only
      rw [exec_bind, exec_bind]
      cases h : (includedNodes sp fs n place).exec p with
      | mk r q =>
        cases r with
        | error e => rfl
        | ok nodes =>
          dsimp only
          rw [exec_bind, exec_bind, hi hk nodes q h]
    | _ => rfl

/-- What lies deeper than the room for included documents is never reached. -/
theorem checkUpTo_eq {levels bound index : Nat} {nodes : List Node} {parent : WalkPath} {p : Progress}
    (hs : StandAt p.includes doc parent index nodes)
    (hroom : ∀ i, index ≤ i →
      p.includes.within (parent ++ [i]) + p.includes.unopened fs parent ≤ levels)
    (hbound : ∀ i, index ≤ i →
      p.includes.within (parent ++ [i]) + p.includes.unopened fs parent ≤ bound) :
    (checkNodes sp fs (checkUpTo sp fs deeper levels) parent index nodes).exec p =
      (checkNodes sp fs (checkLevels sp fs bound) parent index nodes).exec p := by
  match nodes with
  | [] => rfl
  | n :: rest =>
    have hsize := n.sizeOf_getD_interview
    have hnode : (checkNode sp fs (checkUpTo sp fs deeper levels) (parent ++ [index]) n).exec p =
        (checkNode sp fs (checkLevels sp fs bound) (parent ++ [index]) n).exec p := by
      refine checkNode_congr (fun hk => ?_) fun hk nodes q hi => ?_
      · exact checkUpTo_eq (standAt_of_branch hs.head hk)
          (fun i _ => IncludeCache.room_child (hroom index (Nat.le_refl _)) i)
          fun i _ => IncludeCache.room_child (hbound index (Nat.le_refl _)) i
      · obtain ⟨-, -, hless⟩ := includedNodes_room hi (hroom index (Nat.le_refl _))
        obtain ⟨-, -, hless'⟩ := includedNodes_room hi (hbound index (Nat.le_refl _))
        have hin := standAt_of_includedNodes hs.head hk hi
        match levels, bound with
        | 0, _ => exact absurd (hless 0) (Nat.not_lt_zero _)
        | _, 0 => exact absurd (hless' 0) (Nat.not_lt_zero _)
        | levels + 1, bound + 1 =>
          exact checkUpTo_eq hin (fun i _ => Nat.le_of_lt_succ (hless i))
            fun i _ => Nat.le_of_lt_succ (hless' i)
    have hx := checkNode_explores (fun nodes place p => checkLevels_explores sp fs bound) hs.head
    rw [checkNodes, checkNodes, exec_bind, exec_bind, hnode]
    cases hc : (checkNode sp fs (checkLevels sp fs bound) (parent ++ [index]) n).exec p with
    | mk r q =>
      rw [hc] at hx
      cases r with
      | error e => rfl
      | ok u =>
        have hg := hx.grown
        have hbeside (i : Nat) (hi : index + 1 ≤ i) := hg.room_beside (i := i) (by omega) fs
        refine checkUpTo_eq (hs.tail.grown hg) (fun i hi => ?_) fun i hi => ?_
        · exact (hbeside i hi).trans (hroom i (by omega))
        · exact (hbeside i hi).trans (hbound i (by omega))
termination_by (levels, sizeOf nodes)

theorem checkUpTo_doc {levels : Nat} {p : Progress} (h : p.includes.size + fs.fileCount < levels) :
    (checkUpTo sp fs deeper levels doc []).exec p = (check sp fs doc).exec p := by
  cases levels with
  | zero => exact absurd h (Nat.not_lt_zero _)
  | succ levels =>
    have hroom (i : Nat) (_ : 0 ≤ i) : p.includes.within ([] ++ [i]) + p.includes.unopened fs [] ≤
        p.includes.size + fs.fileCount := by
      have hw := p.includes.within_le_size ([] ++ [i])
      have hu := p.includes.unopened_le_fileCount fs []
      omega
    rw [check, exec_bind, exec_get]
    exact checkUpTo_eq (standAt_doc _ doc) (fun i hi => (hroom i hi).trans (Nat.le_of_lt_succ h)) hroom

end Levels

theorem includedNodes_error {n : Node} {place : WalkPath} {p q : Progress} {e : Error}
    (h : (includedNodes sp fs n place).exec p = (.error e, q)) : q = p := by
  rw [exec_includedNodes] at h
  cases hc : p.includes.nodes? place with
  | some nodes => simp [hc] at h
  | none =>
    cases ho : p.includes.openAt sp fs n place with
    | ok o => simp [hc, ho] at h
    | error e' =>
      simp only [hc, ho, Prod.mk.injEq] at h
      exact h.2.symm

/-- However the cache came about: on the way to an included document the files differ, and every include
node has been opened; a file is refused exactly if it is open around its place, and what cannot be opened
leaves no trace; and an examination comes to an end, no more levels down than there are places in the
cache and files. -/
theorem explored_nesting {p : Progress} (h : Explored doc p) :
    (∀ place inc, p.includes.find? place = some inc →
      (p.includes.root.toList ++ p.includes.filesTo place).Nodup ∧
      ∀ above m, above <+: place → above ≠ place → (above, m) ∈ tree p.includes doc →
        m.kindAt above = .ok .inclusion → (p.includes.find? above).isSome) ∧
    (∀ sp fs n place path, p.includes.find? place = none → n.path = some path →
      fs.isFile (sp.resolve fs path) = true →
      ((∃ file at_, ((includedNodes sp fs n place).exec p).1 = .error (.includeCycle file at_)) ↔
        p.includes.root = some (fs.canonical (sp.resolve fs path)) ∨
          ∃ above inc, above <+: place ∧ above ≠ place ∧ p.includes.find? above = some inc ∧
            inc.file = fs.canonical (sp.resolve fs path))) ∧
    (∀ sp fs n place e q, (includedNodes sp fs n place).exec p = (.error e, q) → q = p) ∧
    (∀ sp fs deeper levels, p.includes.size + fs.fileCount < levels →
      (checkUpTo sp fs deeper levels doc []).exec p = (check sp fs doc).exec p) ∧
    (p.includes.subtrees = [] → ∀ sp fs place,
      (((check sp fs doc).exec p).2.includes.filesTo place).length ≤ fs.fileCount) := by
  have hn := h.nested
  refine ⟨fun place inc hi => ⟨hn.nodup_files place, fun above m hp hne hm hk => ?_⟩,
    fun sp fs n place path hc hpath hf => ?_, fun sp fs n place e q => includedNodes_error,
    fun sp fs deeper levels => checkUpTo_doc, fun ho => h.length_filesTo_le ho⟩
  · obtain ⟨n, hs, -⟩ := hn.stands place inc hi
    have hopened := hs.opened_above hp hne (mem_tree_iff.mp hm) hk
    simpa only [IncludeCache.nodes?, Option.isSome_map] using hopened
  · rw [← IncludeCache.mem_enclosingFiles_iff hn.find?_nil, ← IncludeCache.openAt_cycle_iff hpath hf,
      exec_includedNodes, IncludeCache.find?_eq_none.mp hc]
    dsimp only
    cases p.includes.openAt sp fs n place <;> simp

section LoneFile

def loneFile : FileSystem := ⟨[("a.json", .file .empty)], []⟩

theorem locate_loneFile : loneFile.locate "/a.json" = .ok ["a.json"] := by
  have hp : FileSystem.pieceNames "/a.json" = ["", "a.json"] := by decide
  have hs : FileSystem.startOf "/a.json" loneFile.working = [] := by decide
  have hf : FileSystem.pathFault? "/a.json" = none := by decide
  have hl : "a.json".utf8ByteSize ≤ 255 := by decide
  simp only [FileSystem.locate, hf, hp, hs]
  simp [FileSystem.follow, FileSystem.isDirectoryAt, FileSystem.entry?, FileEntry.find?,
    FileSystem.root, FileEntry.lookup?, FileSystem.linkLimit, FileSystem.nameLimit, hl, loneFile]

theorem resolve_loneFile : SearchPath.none.resolve loneFile "/a.json" = "/a.json" := by
  have hb : Path.isBare "/a.json" = false := by decide
  simp only [SearchPath.resolve, hb, Bool.not_false, if_true]

theorem isFile_loneFile : loneFile.isFile "/a.json" = true := by
  simp only [FileSystem.isFile, FileSystem.find?, locate_loneFile]
  rfl

theorem canonical_loneFile : loneFile.canonical "/a.json" = "/a.json" := by
  have hc : FileSystem.placePath ["a.json"] = "/a.json" := by decide
  simp only [FileSystem.canonical, locate_loneFile, hc]

theorem document_loneFile : SearchPath.none.document loneFile "/a.json" = .ok .empty := by
  have he : loneFile.entry? ["a.json"] = some (.file .empty) := rfl
  have hu : String.fromUTF8? ByteArray.empty = some "" := by decide
  have ht : loneFile.readText "/a.json" = .ok "" := by
    simp only [FileSystem.readText, locate_loneFile, he, bind, Except.bind, hu]
  have hread (path : Path) (format : Format) : Document.read path format "" = .ok .empty := rfl
  unfold SearchPath.document SearchPath.readText
  simp only [resolve_loneFile, ht]
  exact hread "/a.json" (Format.ofPath "/a.json")

def loneInclude : Node := { kind := some "include", path := some "/a.json" }

theorem openAt_loneFile {cache : IncludeCache} {place : WalkPath}
    (h : "/a.json" ∉ cache.enclosingFiles place) :
    cache.openAt .none loneFile loneInclude place =
      .ok ⟨⟨"/a.json", []⟩, [], [.included "/a.json" 0 place]⟩ := by
  have hc : (cache.enclosingFiles place).contains "/a.json" = false := by simpa using h
  have hp : loneInclude.path = some "/a.json" := rfl
  simp only [IncludeCache.openAt, hp, resolve_loneFile, isFile_loneFile, canonical_loneFile, hc,
    document_loneFile, bind, Except.bind]
  rfl

def loneCache (place : WalkPath) : IncludeCache := ⟨none, [(place, ⟨"/a.json", []⟩)], []⟩

theorem exec_openInclude_loneFile (place : WalkPath) (store : Settings) (log : List Event) :
    (openInclude .none loneFile loneInclude place).exec ⟨store, .empty, log⟩ =
      (.ok [], ⟨store, loneCache place, log ++ [.included "/a.json" 0 place]⟩) := by
  have hnone (at_ : WalkPath) : IncludeCache.empty.find? at_ = none := rfl
  have he : IncludeCache.empty.enclosingFiles place = [] := by
    simp only [IncludeCache.enclosingFiles, hnone, Option.map_none, List.filterMap_none, List.append_nil]
    rfl
  have ho : IncludeCache.empty.openAt .none loneFile loneInclude place =
      .ok ⟨⟨"/a.json", []⟩, [], [.included "/a.json" 0 place]⟩ := by
    refine openAt_loneFile ?_
    rw [he]
    exact List.not_mem_nil
  rw [exec_openInclude, ho]
  rfl

theorem exec_checkNode_loneFile (levels : Nat) (place : WalkPath) (store : Settings) (log : List Event) :
    (checkNode .none loneFile (checkLevels .none loneFile levels) place loneInclude).exec
        ⟨store, .empty, log⟩ =
      (.ok (), ⟨store, loneCache place, log ++ [.included "/a.json" 0 place]⟩) := by
  have hk : loneInclude.kindAt place = .ok .inclusion := rfl
  have hincluded : (includedNodes .none loneFile loneInclude place).exec ⟨store, .empty, log⟩ =
      (openInclude .none loneFile loneInclude place).exec ⟨store, .empty, log⟩ := rfl
  rw [checkNode_eq, exec_bind, exec_lift, hk]
  dsimp only
  rw [exec_bind, hincluded, exec_openInclude_loneFile]
  cases levels <;> rfl

theorem exec_scanAt_loneFile (place : WalkPath) (store : Settings) (log : List Event) :
    (scanAt .none loneFile .empty place loneInclude).exec ⟨store, .empty, log⟩ =
      (.ok (.restart place), ⟨store, loneCache place, log ++ [.included "/a.json" 0 place]⟩) := by
  have hk : loneInclude.kindAt place = .ok .inclusion := rfl
  have hn : IncludeCache.empty.nodes? place = none := rfl
  rw [scanAt_enabled rfl, exec_bind, exec_lift, hk]
  dsimp only
  rw [hn]
  dsimp only
  rw [exec_bind, exec_discard, exec_openInclude_loneFile]
  rfl

theorem check_loneFile :
    (check .none loneFile [loneInclude]).exec ⟨.empty, .empty, []⟩ =
      (.ok (), ⟨.empty, loneCache [0], [.included "/a.json" 0 [0]]⟩) := by
  have hs : IncludeCache.empty.size + loneFile.fileCount = 1 := rfl
  rw [check, exec_bind, exec_get]
  dsimp only
  rw [hs, checkLevels, checkNodes, exec_bind, List.nil_append, exec_checkNode_loneFile]
  rfl

end LoneFile

/-- A file that was included once cannot be included below itself. -/
theorem explored_nesting_below_itself :
    ∃ file at_, ((includedNodes .none loneFile loneInclude [0, 0]).exec
      ((check .none loneFile [loneInclude]).exec ⟨.empty, .empty, []⟩).2).1 =
        .error (.includeCycle file at_) := by
  have h : Explored [loneInclude] ((check .none loneFile [loneInclude]).exec ⟨.empty, .empty, []⟩).2 :=
    .checked _ _ (.fresh loneFile none .empty [])
  obtain ⟨-, hcycle, -⟩ := explored_nesting h
  rw [check_loneFile] at hcycle ⊢
  have hf : loneFile.isFile (SearchPath.none.resolve loneFile "/a.json") = true := by
    rw [resolve_loneFile, isFile_loneFile]
  refine (hcycle .none loneFile loneInclude [0, 0] "/a.json" rfl rfl hf).mpr (.inr ?_)
  rw [resolve_loneFile, canonical_loneFile]
  exact ⟨[0], ⟨"/a.json", []⟩, ⟨[0], rfl⟩, by decide, rfl, rfl⟩

end Walk
end Interview
