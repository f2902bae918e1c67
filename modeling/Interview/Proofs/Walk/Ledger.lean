import Interview.Proofs.Walk.Agreement

/-! The documents in a cache together with the unknown fields that were found in them. Examinations that
went well opened the same documents, in whatever order, and so they found the same unknown fields. -/

namespace Interview.Walk

variable {sp : SearchPath} {fs : FileSystem} {doc : List Node}

/-- A cache as a list of the documents that were opened at its places. -/
structure Ledger (sp : SearchPath) (fs : FileSystem) (doc : List Node) (cache : IncludeCache)
    (openings : List (WalkPath × IncludeCache.Opened)) : Prop where
  subtrees : cache.subtrees = openings.map fun e => (e.1, e.2.included)
  unknownFields : cache.unknownFields = openings.flatMap fun e => e.2.unknownFields
  distinct : (openings.map Prod.fst).Nodup
  opened : ∀ e ∈ openings, ∃ n before, Stands cache doc e.1 n ∧ n.kindAt e.1 = .ok .inclusion ∧
    IncludeCache.openAt before sp fs n e.1 = .ok e.2

namespace Ledger

variable {cache other : IncludeCache} {openings others : List (WalkPath × IncludeCache.Opened)}

theorem fresh (sp : SearchPath) (fs : FileSystem) (doc : List Node) (root : Option Path) :
    Ledger sp fs doc (.rootedAt fs root) [] :=
  ⟨rfl, rfl, List.nodup_nil, fun _ he => absurd he List.not_mem_nil⟩

theorem exists_opening (h : Ledger sp fs doc cache openings) {place : WalkPath} {inc : Included}
    (hi : cache.find? place = some inc) : ∃ o, (place, o) ∈ openings ∧ o.included = inc := by
  have hm := IncludeCache.find?_mem hi
  rw [h.subtrees] at hm
  obtain ⟨⟨at_, o⟩, ho, he⟩ := List.mem_map.mp hm
  obtain ⟨rfl, rfl⟩ := Prod.mk.inj he
  exact ⟨o, ho, rfl⟩

theorem not_mem_places (h : Ledger sp fs doc cache openings) {place : WalkPath}
    (hn : cache.nodes? place = none) : place ∉ openings.map Prod.fst := by
  intro hm
  obtain ⟨e, he, rfl⟩ := List.mem_map.mp hm
  have hl := List.lookup_eq_none_iff.mp (IncludeCache.find?_eq_none.mpr hn) (e.1, e.2.included)
    (by rw [h.subtrees]; exact List.mem_map.mpr ⟨e, he, rfl⟩)
  simp at hl

theorem opens {fresh : WalkPath → Prop} {new : IncludeCache} (h : Ledger sp fs doc cache openings)
    (ho : Opens sp fs doc fresh cache new) : ∃ e, Ledger sp fs doc new (openings ++ [e]) := by
  have hg := ho.grown
  obtain ⟨-, hs, hk, hn, hopen⟩ := ho
  rename_i place n o
  refine ⟨(place, o), ?_, ?_, ?_, fun e he => ?_⟩
  · rw [List.map_append, ← h.subtrees]
    rfl
  · rw [List.flatMap_append, ← h.unknownFields]
    simp [IncludeCache.add]
  · rw [List.map_append, List.nodup_append]
    refine ⟨h.distinct, by simp, fun at_ hat other ho => ?_⟩
    obtain rfl : other = place := by simpa using ho
    rintro rfl
    exact h.not_mem_places hn hat
  · rcases List.mem_append.mp he with he | he
    · obtain ⟨m, before, hm, hkind, hbefore⟩ := h.opened e he
      exact ⟨m, before, hm.grown hg, hkind, hbefore⟩
    · obtain rfl : e = (place, o) := by simpa using he
      exact ⟨n, cache, hs.grown hg, hk, hopen⟩

theorem explores {fresh : WalkPath → Prop} {new : IncludeCache} (h : Ledger sp fs doc cache openings)
    (hx : Explores sp fs doc fresh cache new) : ∃ more, Ledger sp fs doc new more := by
  induction hx with
  | refl => exact ⟨openings, h⟩
  | tail _ hs ih =>
    obtain ⟨more, hm⟩ := ih
    obtain ⟨e, he⟩ := hm.opens hs
    exact ⟨_, he⟩

theorem kept (h : Ledger sp fs doc cache openings) (ho : Ledger sp fs doc other others)
    {e : WalkPath × IncludeCache.Opened} (he : e ∈ openings)
    (hs : ∀ n, Stands cache doc e.1 n → Stands other doc e.1 n) (hc : (other.nodes? e.1).isSome) :
    e ∈ others ∧ other.find? e.1 = some e.2.included := by
  obtain ⟨place, o⟩ := e
  obtain ⟨n, before, hn, -, hopen⟩ := h.opened _ he
  obtain ⟨inc, hi⟩ : ∃ inc, other.find? place = some inc := by
    simpa only [IncludeCache.nodes?, Option.isSome_map, Option.isSome_iff_exists] using hc
  obtain ⟨o', hm, rfl⟩ := ho.exists_opening hi
  obtain ⟨n', before', hn', -, hopen'⟩ := ho.opened _ hm
  obtain rfl := (hs n hn).unique hn'
  obtain rfl : o' = o := IncludeCache.openAt_unique hopen hopen'
  exact ⟨hm, hi⟩

theorem stands (h : Ledger sp fs doc cache openings) (ho : Ledger sp fs doc other others)
    (hc : Checked other [] 0 doc) {place : WalkPath} {n : Node} (hs : Stands cache doc place n) :
    Stands other doc place n := by
  refine hs.mono fun at_ m nodes hm hm' hk hn => ?_
  obtain ⟨inc, hi, rfl⟩ := Option.map_eq_some_iff.mp hn
  obtain ⟨o, ho', rfl⟩ := h.exists_opening hi
  have hcached := hc.cached_of_mem (mem_tree_iff.mpr hm') hk
  obtain ⟨-, hfound⟩ := h.kept ho ho' (fun _ hs => hm.unique hs ▸ hm') hcached
  rw [IncludeCache.nodes?, hfound]
  rfl

theorem subset (h : Ledger sp fs doc cache openings) (ho : Ledger sp fs doc other others)
    (hc : Checked other [] 0 doc) : openings ⊆ others := by
  intro e he
  obtain ⟨n, -, hn, hk, -⟩ := h.opened e he
  have hcached := hc.cached_of_mem (mem_tree_iff.mpr (h.stands ho hc hn)) hk
  exact (h.kept ho he (fun _ => h.stands ho hc) hcached).1

/-- Examinations that went well collected the same unknown fields, each as often. -/
theorem unknownFields_perm (h : Ledger sp fs doc cache openings) (ho : Ledger sp fs doc other others)
    (hc : Checked cache [] 0 doc) (hc' : Checked other [] 0 doc) :
    cache.unknownFields.Perm other.unknownFields := by
  have hperm : openings.Perm others := by
    rw [List.perm_ext_iff_of_nodup (.of_map _ h.distinct) (.of_map _ ho.distinct)]
    exact fun e => ⟨fun he => h.subset ho hc' he, fun he => ho.subset h hc he⟩
  rw [h.unknownFields, ho.unknownFields]
  exact hperm.flatMap_right _

end Ledger

/-- From a fresh cache and from one that was filled since then an examination ends alike, and where it
goes well it has the same unknown fields, each as often. -/
theorem check_filled {root : Option Path} {p p' : Progress} (hp : p.includes = .rootedAt fs root)
    (hx : Explores sp fs doc (fun _ => True) p.includes p'.includes) :
    ((check sp fs doc).exec p').1 = ((check sp fs doc).exec p).1 ∧
      (((check sp fs doc).exec p).1 = .ok () →
        ((check sp fs doc).exec p').2.includes.unknownFields.Perm
          ((check sp fs doc).exec p).2.includes.unknownFields) := by
  have hn : Nested doc p.includes := hp ▸ .empty fs root
  have hledger : Ledger sp fs doc p.includes [] := hp ▸ .fresh sp fs doc root
  have hanswer := (check_alike (.of_explores hx hn)).answer
  refine ⟨hanswer, fun hok => ?_⟩
  obtain ⟨openings, ho⟩ := hledger.explores (check_explores sp fs doc p)
  obtain ⟨openings', ho'⟩ := hledger.explores (hx.trans (check_explores sp fs doc p'))
  have hchecked : Checked ((check sp fs doc).exec p).2.includes [] 0 doc :=
    check_checked (Prod.ext hok rfl)
  have hchecked' : Checked ((check sp fs doc).exec p').2.includes [] 0 doc :=
    check_checked (Prod.ext (hanswer.trans hok) rfl)
  exact ho'.unknownFields_perm ho hchecked' hchecked

end Interview.Walk
