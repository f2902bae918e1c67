import Interview.Proofs.Document.Distinct
import Interview.Proofs.Document.Reading
import Mathlib.Data.List.Nodup

/-! Nodes inside nodes, in the data and as they were read. What is written at a walk path is read into the
node at that path, and each report comes from a key that stands at some walk path. -/

namespace Interview

namespace Node

/-- The nodes that are written inside a node, and their place. -/
def nested? (place : String) (r : Raw) : Option (String × List Raw) :=
  match (written r).find? (·.name == "interview") with
  | some ⟨label, _, .list items⟩ => some (children place label, items)
  | _ => none

/-- What is written at a walk path below a node, and its place. -/
def writtenAt? (place : String) (r : Raw) : WalkPath → Option (String × Raw)
  | [] => some (place, r)
  | i :: p => do
    let (inner, items) ← nested? place r
    let child ← items[i]?
    writtenAt? (step inner (Nat.repr i)) child p

def below? (n : Node) : WalkPath → Option Node
  | [] => some n
  | i :: p => do
    let nodes ← n.interview
    let child ← nodes[i]?
    child.below? p

variable {place inner u : String} {r : Raw} {items : List Raw} {draft : Draft} {e : Entry}

section Written

theorem sublist_positioned (index : Nat) (names : List String) (items : List Raw) :
    ((positioned index names items).map fun e => fieldOf e.name).Sublist (names.map fieldOf) := by
  induction names generalizing index items with
  | nil => simp [positioned]
  | cons name names ih =>
    cases items with
    | nil => simp [positioned]
    | cons r rest => exact (ih (index + 1) rest).cons_cons _

theorem mem_of_positioned {index : Nat} {names : List String} (h : e ∈ positioned index names items) :
    e.name ∈ names ∧ e.data ∈ items := by
  induction names generalizing index items with
  | nil => simp [positioned] at h
  | cons name names ih =>
    cases items with
    | nil => simp [positioned] at h
    | cons r rest =>
      rcases List.mem_cons.mp h with rfl | h
      · exact ⟨List.mem_cons_self, List.mem_cons_self⟩
      · exact (ih h).imp (List.mem_cons_of_mem _) (List.mem_cons_of_mem _)

theorem sizeOf_data_lt (h : e ∈ written r) : sizeOf e.data < sizeOf r := by
  cases r with
  | object entries =>
    obtain ⟨entry, hm, rfl⟩ := List.mem_map.mp h
    have hlt := List.sizeOf_lt_of_mem hm
    obtain ⟨k, v⟩ := entry
    simp only [Entry.keyed, Prod.mk.sizeOf_spec, Raw.object.sizeOf_spec] at hlt ⊢
    omega
  | list items =>
    have hlt := List.sizeOf_lt_of_mem (mem_of_positioned h).2
    simp only [Raw.list.sizeOf_spec]
    omega
  | _ => cases h

theorem distinct_data (hd : r.Distinct) (h : e ∈ written r) : e.data.Distinct := by
  cases hd with
  | object _ hd =>
    obtain ⟨entry, hm, rfl⟩ := List.mem_map.mp h
    exact hd entry hm
  | list hd => exact hd _ (mem_of_positioned h).2
  | _ => cases h

/-- A key of its own stands for a field of its own, but for the two names of one field. -/
theorem eq_of_fieldOf_eq {name other : String} (h : fieldOf name = fieldOf other)
    (ha : ¬ (name = "match_key" ∧ other = matchAlias)) (hb : ¬ (name = matchAlias ∧ other = "match_key")) :
    name = other := by
  unfold fieldOf at h
  split at h <;> split at h <;> simp_all

theorem nodup_written (hd : r.Distinct) (h : ofRaw? place r = some draft) :
    ((written r).map fun e => fieldOf e.name).Nodup := by
  cases r with
  | object entries =>
    rw [ofRaw?] at h
    split at h
    · cases h
    · next hboth =>
      have hnot : ¬ ("match_key" ∈ entries.map Prod.fst ∧ matchAlias ∈ entries.map Prod.fst) := by
        simpa [hasBothMatchNames, Raw.lookup?_isSome] using hboth
      cases hd with
      | object hk _ =>
        have hmap : ((written (.object entries)).map fun e => fieldOf e.name) =
            (entries.map Prod.fst).map fieldOf := by
          simp [written, Entry.keyed]
        rw [hmap]
        refine hk.map_on fun name hn other ho heq => eq_of_fieldOf_eq heq ?_ ?_
        · rintro ⟨rfl, rfl⟩
          exact hnot ⟨hn, ho⟩
        · rintro ⟨rfl, rfl⟩
          exact hnot ⟨ho, hn⟩
  | list items =>
    have hnames : (fieldNames.map fieldOf).Nodup := by decide
    exact hnames.sublist (sublist_positioned 0 fieldNames items)
  | _ => exact List.nodup_nil

end Written

section Nested

theorem exists_of_nested? (h : nested? place r = some (inner, items)) :
    ∃ e ∈ written r, e.name = "interview" ∧ e.data = .list items ∧ inner = children place e.label := by
  unfold nested? at h
  split at h
  · next label name nodes hfind =>
    obtain ⟨rfl, rfl⟩ : children place label = inner ∧ nodes = items := by simpa using h
    have hname := List.find?_some hfind
    exact ⟨_, List.mem_of_find?_eq_some hfind, eq_of_beq hname, rfl, rfl⟩
  · cases h

theorem nested?_of_mem (hd : ((written r).map fun e => fieldOf e.name).Nodup) (he : e ∈ written r)
    (hn : e.name = "interview") (hi : e.data = .list items) :
    nested? place r = some (children place e.label, items) := by
  have hfound : ((written r).find? (·.name == "interview")).isSome :=
    List.find?_isSome.mpr ⟨e, he, beq_iff_eq.mpr hn⟩
  obtain ⟨e', hfind⟩ := Option.isSome_iff_exists.mp hfound
  have hname := List.find?_some hfind
  have hsame : e' = e := by
    refine List.inj_on_of_nodup_map hd (List.mem_of_find?_eq_some hfind) he ?_
    rw [eq_of_beq hname, hn]
  subst hsame
  obtain ⟨label, name, data⟩ := e'
  simp only at hi
  simp only [nested?, hfind, hi]

theorem distinct_nested (hd : r.Distinct) (h : nested? place r = some (inner, items)) :
    ∀ child ∈ items, child.Distinct := by
  obtain ⟨e, he, -, hi, -⟩ := exists_of_nested? h
  have hdata := distinct_data hd he
  rw [hi] at hdata
  cases hdata with
  | list hd => exact hd

theorem sizeOf_nested_lt (h : nested? place r = some (inner, items)) : sizeOf items < sizeOf r := by
  obtain ⟨e, he, -, hi, -⟩ := exists_of_nested? h
  have hlt := sizeOf_data_lt he
  rw [hi, Raw.list.sizeOf_spec] at hlt
  omega

/-- Where a node is read, so are the nodes inside it, and what they report is part of the report. -/
theorem nodes?_of_nested? (h : ofRaw? place r = some draft) (hd : r.Distinct)
    (hn : nested? place r = some (inner, items)) :
    ∃ nodes unknown, nodes? inner 0 items = some (nodes, unknown) ∧ draft.node.interview = some nodes ∧
      ∀ u ∈ unknown, u ∈ draft.unknown := by
  obtain ⟨e, he, hname, hi, rfl⟩ := exists_of_nested? hn
  have hread := readsAll_of_ofRaw? h
  obtain ⟨unknown, hopt⟩ := hread.interview_eq (nodup_written hd h) he hname
  have hlist := hopt
  rw [hi, optionalNodes?] at hlist
  obtain ⟨⟨nodes, reports⟩, hnodes, heq⟩ := Option.map_eq_some_iff.mp hlist
  obtain ⟨hint, rfl⟩ : some nodes = draft.node.interview ∧ reports = unknown := by simpa using heq
  refine ⟨nodes, reports, hnodes, hint.symm, fun u hu => ?_⟩
  exact hread.mem_unknown.mpr (.inr ⟨e, he, .inr ⟨hname, _, _, hopt, hu⟩⟩)

theorem reported_of_mem_unknown (h : ofRaw? place r = some draft) (hd : r.Distinct) (hu : u ∈ draft.unknown) :
    (∃ e ∈ written r, isField e.name = false ∧ u = step place e.name) ∨
      ∃ inner items nodes unknown, nested? place r = some (inner, items) ∧
        nodes? inner 0 items = some (nodes, unknown) ∧ u ∈ unknown := by
  rcases (readsAll_of_ofRaw? h).mem_unknown.mp hu with hu | ⟨e, he, hown | ⟨hname, nodes, unknown, hopt, hu⟩⟩
  · cases hu
  · exact .inl ⟨e, he, hown⟩
  · obtain ⟨label, name, data⟩ := e
    cases data with
    | null =>
      obtain ⟨-, rfl⟩ : nodes = none ∧ unknown = [] := by simpa [optionalNodes?, eq_comm] using hopt
      cases hu
    | list items =>
      rw [optionalNodes?] at hopt
      obtain ⟨⟨ns, us⟩, hns, heq⟩ := Option.map_eq_some_iff.mp hopt
      obtain ⟨-, rfl⟩ : some ns = nodes ∧ us = unknown := by simpa using heq
      exact .inr ⟨_, items, ns, us, nested?_of_mem (nodup_written hd h) he hname rfl, hns, hu⟩
    | _ => simp [optionalNodes?] at hopt

theorem ofRaw?_of_nodes? {nodes : List Node} {unknown : List String} {i : Nat}
    (h : nodes? place 0 items = some (nodes, unknown)) (hi : items[i]? = some r) :
    ∃ draft, ofRaw? (step place (Nat.repr i)) r = some draft ∧ nodes[i]? = some draft.node ∧
      ∀ u ∈ draft.unknown, u ∈ unknown := by
  obtain ⟨drafts, rfl, rfl, -, hat⟩ := nodes?_drafts h
  obtain ⟨draft, hdraft, hread⟩ := hat i r hi
  rw [Nat.zero_add] at hread
  refine ⟨draft, hread, by simp [hdraft], fun u hu => ?_⟩
  exact List.mem_flatMap.mpr ⟨draft, List.mem_of_getElem? hdraft, hu⟩

theorem exists_of_mem_unknown {nodes : List Node} {unknown : List String}
    (h : nodes? place 0 items = some (nodes, unknown)) (hu : u ∈ unknown) :
    ∃ i r draft, items[i]? = some r ∧ ofRaw? (step place (Nat.repr i)) r = some draft ∧
      u ∈ draft.unknown := by
  obtain ⟨drafts, rfl, rfl, hlen, hat⟩ := nodes?_drafts h
  obtain ⟨draft, hm, hu⟩ := List.mem_flatMap.mp hu
  obtain ⟨i, hi, rfl⟩ := List.mem_iff_getElem.mp hm
  have hlt : i < items.length := hlen ▸ hi
  obtain ⟨draft, hdraft, hread⟩ := hat i items[i] (List.getElem?_eq_getElem hlt)
  obtain rfl : drafts[i] = draft := by simpa [hi] using hdraft
  exact ⟨i, items[i], drafts[i], List.getElem?_eq_getElem hlt, by rwa [Nat.zero_add] at hread, hu⟩

end Nested

section Depth

/-- What stands at a walk path was read into the node at that path. -/
theorem read_writtenAt? {p : WalkPath} {r' : Raw} (h : ofRaw? place r = some draft) (hd : r.Distinct)
    (hw : writtenAt? place r p = some (inner, r')) :
    ∃ draft', ofRaw? inner r' = some draft' ∧ r'.Distinct ∧ draft.node.below? p = some draft'.node ∧
      ∀ u ∈ draft'.unknown, u ∈ draft.unknown := by
  induction p generalizing place r draft with
  | nil =>
    obtain ⟨rfl, rfl⟩ : place = inner ∧ r = r' := by simpa [writtenAt?] using hw
    exact ⟨draft, h, hd, rfl, fun _ hu => hu⟩
  | cons i p ih =>
    rw [writtenAt?] at hw
    obtain ⟨⟨below, items⟩, hn, hw⟩ := Option.bind_eq_some_iff.mp hw
    obtain ⟨child, hi, hw⟩ := Option.bind_eq_some_iff.mp hw
    obtain ⟨nodes, unknown, hnodes, hint, hsub⟩ := nodes?_of_nested? h hd hn
    obtain ⟨draft₁, hread, hnode, hsub₁⟩ := ofRaw?_of_nodes? hnodes hi
    obtain ⟨draft', hread', hd', hbelow, hsub'⟩ :=
      ih hread (distinct_nested hd hn child (List.mem_of_getElem? hi)) hw
    refine ⟨draft', hread', hd', ?_, fun u hu => hsub u (hsub₁ u (hsub' u hu))⟩
    simp [below?, hint, hnode, hbelow]

/-- Every report is that of a key at some walk path. -/
theorem exists_writtenAt? {place : String} {r : Raw} {draft : Draft} (h : ofRaw? place r = some draft)
    (hd : r.Distinct) (hu : u ∈ draft.unknown) :
    ∃ p inner r', writtenAt? place r p = some (inner, r') ∧
      ∃ e ∈ written r', isField e.name = false ∧ u = step inner e.name := by
  rcases reported_of_mem_unknown h hd hu with hown | ⟨inner, items, nodes, unknown, hn, hnodes, hu⟩
  · exact ⟨[], place, r, rfl, hown⟩
  · -- the report is one of a node inside, whose data are smaller
    obtain ⟨i, child, draft₁, hi, hread, hu⟩ := exists_of_mem_unknown hnodes hu
    have hmem := List.mem_of_getElem? hi
    have hlt : sizeOf child < sizeOf r := Nat.lt_trans (List.sizeOf_lt_of_mem hmem) (sizeOf_nested_lt hn)
    obtain ⟨p, inner', r', hw, hown⟩ := exists_writtenAt? hread (distinct_nested hd hn child hmem) hu
    exact ⟨i :: p, inner', r', by simp [writtenAt?, hn, hi, hw], hown⟩
termination_by sizeOf r

theorem exists_entry_of_other (he : e ∈ written r) (hf : isField e.name = false) :
    ∃ entries, r = .object entries ∧ (e.name, e.data) ∈ entries := by
  cases r with
  | object entries =>
    obtain ⟨entry, hm, rfl⟩ := List.mem_map.mp he
    exact ⟨entries, rfl, hm⟩
  | list items =>
    have hfield := isField_of_mem_fieldNames (mem_of_positioned he).1
    simp [hf] at hfield
  | _ => cases he

/-- A key of a mapping is a field carried into the node, or it is reported. -/
theorem kept_of_ofRaw? {entries : List (String × Raw)} {key : String} {v : Raw}
    (h : ofRaw? place (.object entries) = some draft) (hd : (Raw.object entries).Distinct)
    (hm : (key, v) ∈ entries) :
    if isField key then draft.node.Carries key v else step place key ∈ draft.unknown := by
  have hread := readsAll_of_ofRaw? h
  have he : Entry.keyed (key, v) ∈ written (.object entries) := List.mem_map_of_mem hm
  split
  · next hf => exact hread.carries (nodup_written hd h) he hf
  · next hf => exact hread.mem_unknown.mpr (.inr ⟨_, he, .inl ⟨eq_false_of_ne_true hf, rfl⟩⟩)

end Depth

end Node
end Interview
