import Interview.Document.Reader
import Interview.Proofs.Document.Depth
import Interview.Proofs.Text.Cutting

/-! What becomes of the keys of a document. A key of a mapping that stands for a node, at whatever depth, is a
field of that node or is reported by its place, and nothing else is reported. A root mapping that stands
for its list of nodes has no node of its own: what else it holds goes without a report. -/

namespace Interview

namespace Node

variable {place inner part other : String} {r : Raw}

theorem step_eq (hp : place ≠ "") : step place part = place ++ "." ++ part := by
  rw [step, if_neg (by simpa using hp)]

theorem step_ne_empty (hpart : part ≠ "") : step place part ≠ "" := by
  unfold step
  split
  · exact hpart
  · intro h
    exact hpart (String.append_eq_empty_iff.mp h).2

theorem dot_mem_step (hp : place ≠ "") : '.' ∈ (step place part).toList := by
  simp [step_eq hp, String.toList_append]

theorem part_eq_of_step_eq (hp : place ≠ "") (hi : inner ≠ "") (hpart : '.' ∉ part.toList)
    (hother : '.' ∉ other.toList) (h : step place part = step inner other) : part = other := by
  have hcut {place part : String} (hp : place ≠ "") (hpart : '.' ∉ part.toList) :
      (Text.cut '.' (step place part).toList).getLast? = some part.toList := by
    have hchars : (step place part).toList = place.toList ++ '.' :: part.toList := by
      simp [step_eq hp, String.toList_append]
    rw [hchars, Text.cut_append, Text.cut_of_not_mem hpart, List.getLast?_concat]
  have hlast := hcut hp hpart
  rw [h, hcut hi hother] at hlast
  exact String.toList_injective (Option.some.inj hlast).symm

theorem writtenAt?_place_ne_empty {p : WalkPath} {r' : Raw} (hp : place ≠ "")
    (hw : writtenAt? place r p = some (inner, r')) : inner ≠ "" := by
  induction p generalizing place r with
  | nil =>
    obtain ⟨rfl, -⟩ : place = inner ∧ r = r' := by simpa [writtenAt?] using hw
    exact hp
  | cons i p ih =>
    rw [writtenAt?] at hw
    obtain ⟨⟨below, items⟩, -, hw⟩ := Option.bind_eq_some_iff.mp hw
    obtain ⟨child, -, hw⟩ := Option.bind_eq_some_iff.mp hw
    exact ih (step_ne_empty Nat.repr_ne_empty) hw

theorem dot_not_mem_of_isField {name : String} (h : isField name = true) : '.' ∉ name.toList := by
  have hall : ∀ name ∈ matchAlias :: fieldNames, '.' ∉ name.toList := by decide
  refine hall name ?_
  simpa [isField, or_comm] using h

end Node

namespace Document

/-- What is written at a walk path of a document, and its place. -/
def writtenAt? (r : Raw) : WalkPath → Option (String × Raw)
  | [] => none
  | i :: p =>
    match items? r with
    | .ok (.list items) => items[i]?.bind fun child => Node.writtenAt? (Node.step "" (Nat.repr i)) child p
    | _ => none

def nodeAt? (d : Document) : WalkPath → Option Node
  | [] => none
  | i :: p => d.nodes[i]?.bind fun n => n.below? p

/-- A mapping that stands for a node has this key. -/
def HasKey (r : Raw) (p : WalkPath) (place key : String) (v : Raw) : Prop :=
  ∃ entries, writtenAt? r p = some (place, .object entries) ∧ (key, v) ∈ entries

/-- The mapping stands for the list of nodes in it. -/
def Wraps (entries : List (String × Raw)) : Prop :=
  Raw.lookup? "kind" entries = none ∧ (Raw.lookup? "interview" entries).isSome = true

instance (entries : List (String × Raw)) : Decidable (Wraps entries) :=
  inferInstanceAs (Decidable (_ ∧ _))

/-- What has become of every key of the data. -/
structure Accounted (r : Raw) (d : Document) : Prop where
  kept : ∀ p place key v, HasKey r p place key v → ∃ n, d.nodeAt? p = some n ∧
    if Node.isField key then n.Carries key v else Node.step place key ∈ d.unknownFields
  reported : ∀ u ∈ d.unknownFields, ∃ p place key v, HasKey r p place key v ∧
    Node.isField key = false ∧ u = Node.step place key
  /-- The place of a field is not reported, unless another key has dots and spells it. -/
  consumed : ∀ p place key v, HasKey r p place key v → Node.isField key = true →
    Node.step place key ∈ d.unknownFields → ∃ p' place' key' v', HasKey r p' place' key' v' ∧
      Node.isField key' = false ∧ '.' ∈ key'.toList ∧ Node.step place' key' = Node.step place key
  /-- A root mapping is the first node itself, or its keys are not reported. -/
  root : ∀ entries, r = .object entries →
    if Wraps entries then ∀ key ∈ entries.map Prod.fst, '.' ∉ key.toList → key ∉ d.unknownFields
    else writtenAt? r [0] = some ("0", r)

variable {path : Path} {r : Raw} {d : Document} {p : WalkPath} {place key u : String} {v : Raw}

theorem items?_of_wraps {entries : List (String × Raw)} (hw : Wraps entries) :
    ∃ items, Raw.lookup? "interview" entries = some items ∧ items? (.object entries) = .ok items := by
  obtain ⟨hkind, hint⟩ := hw
  obtain ⟨items, hitems⟩ := Option.isSome_iff_exists.mp hint
  exact ⟨items, hitems, by simp only [items?, hkind, hitems]⟩

theorem items?_of_not_wraps {entries : List (String × Raw)} (hw : ¬ Wraps entries) :
    items? (.object entries) = .ok (.list [.object entries]) := by
  simp only [items?]
  split
  · next items hkind hint => exact absurd ⟨hkind, Option.isSome_of_eq_some hint⟩ hw
  · rfl

theorem distinct_items {items : List Raw} (hd : r.Distinct) (h : items? r = .ok (.list items)) :
    ∀ child ∈ items, child.Distinct := by
  cases hd with
  | null =>
    obtain rfl : [] = items := by simpa [items?] using h
    simp
  | list hd =>
    obtain rfl := Raw.list.inj (Except.ok.inj h)
    exact hd
  | @object entries hk hd =>
    by_cases hw : Wraps entries
    · obtain ⟨found, hlookup, hitems⟩ := items?_of_wraps hw
      obtain rfl : found = .list items := Except.ok.inj (hitems.symm.trans h)
      have hlist : (Raw.list items).Distinct := hd _ (Raw.mem_of_lookup? hlookup)
      cases hlist with
      | list hd => exact hd
    · obtain rfl : [.object entries] = items := by simpa [items?_of_not_wraps hw] using h
      simpa using Raw.Distinct.object hk hd
  | _ => cases h

theorem nodes?_of_ofRaw (h : ofRaw path r = .ok d) :
    ∃ items, items? r.canonical = .ok (.list items) ∧
      Node.nodes? "" 0 items = some (d.nodes, d.unknownFields) := by
  unfold ofRaw at h
  split at h
  · cases h
  · next items hitems =>
    split at h
    · next nodes unknown hnodes =>
      obtain rfl := Except.ok.inj h
      exact ⟨items, hitems, hnodes⟩
    · cases h
  · cases h

theorem read_writtenAt? {r' : Raw} (h : ofRaw path r = .ok d) (hw : writtenAt? r.canonical p = some (place, r')) :
    ∃ draft, Node.ofRaw? place r' = some draft ∧ r'.Distinct ∧ d.nodeAt? p = some draft.node ∧
      ∀ u ∈ draft.unknown, u ∈ d.unknownFields := by
  obtain ⟨items, hitems, hnodes⟩ := nodes?_of_ofRaw h
  cases p with
  | nil => cases hw
  | cons i p =>
    simp only [writtenAt?, hitems] at hw
    obtain ⟨child, hi, hw⟩ := Option.bind_eq_some_iff.mp hw
    have hd := distinct_items (Raw.distinct_canonical r) hitems child (List.mem_of_getElem? hi)
    obtain ⟨first, hread, hnode, hsub⟩ := Node.ofRaw?_of_nodes? hnodes hi
    obtain ⟨draft, hread', hd', hbelow, hsub'⟩ := Node.read_writtenAt? hread hd hw
    refine ⟨draft, hread', hd', ?_, fun u hu => hsub u (hsub' u hu)⟩
    simp [nodeAt?, hnode, hbelow]

theorem exists_hasKey (h : ofRaw path r = .ok d) (hu : u ∈ d.unknownFields) :
    ∃ p place key v, HasKey r.canonical p place key v ∧ Node.isField key = false ∧
      u = Node.step place key := by
  obtain ⟨items, hitems, hnodes⟩ := nodes?_of_ofRaw h
  obtain ⟨i, child, draft, hi, hread, hu⟩ := Node.exists_of_mem_unknown hnodes hu
  have hd := distinct_items (Raw.distinct_canonical r) hitems child (List.mem_of_getElem? hi)
  obtain ⟨p, place, r', hw, e, he, hf, rfl⟩ := Node.exists_writtenAt? hread hd hu
  obtain ⟨entries, rfl, hm⟩ := Node.exists_entry_of_other he hf
  refine ⟨i :: p, place, e.name, e.data, ⟨entries, ?_, hm⟩, hf, rfl⟩
  simp [writtenAt?, hitems, hi, hw]

theorem HasKey.place_ne_empty (hk : HasKey r p place key v) : place ≠ "" := by
  obtain ⟨entries, hw, -⟩ := hk
  cases p with
  | nil => cases hw
  | cons i p =>
    rw [writtenAt?] at hw
    split at hw
    · obtain ⟨child, -, hw⟩ := Option.bind_eq_some_iff.mp hw
      exact Node.writtenAt?_place_ne_empty (Node.step_ne_empty Nat.repr_ne_empty) hw
    · cases hw

/-- Every key of a mapping that stands for a node is a field carried into the node or is reported, and nothing
else is. The mapping around the list of nodes counts for that list only. -/
theorem fields_accounted (h : ofRaw path r = .ok d) :
    Accounted r.canonical d ∧
      ∀ r' entries entries', r.canonical = .object entries → r'.canonical = .object entries' →
        Wraps entries → Wraps entries' →
        Raw.lookup? "interview" entries' = Raw.lookup? "interview" entries → ofRaw path r' = .ok d := by
  refine ⟨⟨?kept, fun _ => exists_hasKey h, ?consumed, ?root⟩, ?wrapped⟩
  case kept =>
    rintro p place key v ⟨entries, hw, hm⟩
    obtain ⟨draft, hread, hd, hnode, hsub⟩ := read_writtenAt? h hw
    have hkept := Node.kept_of_ofRaw? hread hd hm
    refine ⟨draft.node, hnode, ?_⟩
    split
    · next hf => simpa [hf] using hkept
    · next hf => exact hsub _ (by simpa [hf] using hkept)
  case consumed =>
    intro p place key v hk hf hu
    obtain ⟨p', place', key', v', hk', hf', heq⟩ := exists_hasKey h hu
    refine ⟨p', place', key', v', hk', hf', ?_, heq.symm⟩
    by_contra hdot
    have hkey := Node.part_eq_of_step_eq hk.place_ne_empty hk'.place_ne_empty
      (Node.dot_not_mem_of_isField hf) hdot heq
    rw [hkey, hf'] at hf
    cases hf
  case root =>
    intro entries hr
    split
    · intro key _ hdot hu
      obtain ⟨p, place, key', v, hk, -, rfl⟩ := exists_hasKey h hu
      exact hdot (Node.dot_mem_step hk.place_ne_empty)
    · next hw =>
      have hzero : Nat.repr 0 = "0" := by decide
      rw [hr]
      simp [writtenAt?, items?_of_not_wraps hw, Node.writtenAt?, Node.step, hzero]
  case wrapped =>
    intro r' entries entries' hr hr' hw hw' hsame
    obtain ⟨items, hlookup, hitems⟩ := items?_of_wraps hw
    obtain ⟨items', hlookup', hitems'⟩ := items?_of_wraps hw'
    obtain rfl : items' = items := by
      rw [hlookup, hlookup'] at hsame
      exact Option.some.inj hsame
    have hroot : items? r'.canonical = items? r.canonical := by rw [hr, hr', hitems, hitems']
    rw [← h, ofRaw, ofRaw, hroot]

def misspelt : Raw :=
  .list [.object [("kind", .str "branch"), ("titel", .str "A"), ("match_name", .str "a"),
    ("interview", .list [.object [("key", .str "b"), ("match_vaules", .list [])]])]]

theorem fields_accounted_misspelt :
    let d : Document :=
      ⟨[{ kind := some "branch", matchKey := some "a", interview := some [{ key := some "b" }] }],
        ["0.interview.?.0.match_vaules", "0.titel"]⟩
    ofRaw "/a.yaml" misspelt = .ok d ∧
      HasKey misspelt.canonical [0] "0" "match_name" (.str "a") ∧
      HasKey misspelt.canonical [0, 0] "0.interview.?.0" "match_vaules" (.list []) ∧
      Accounted misspelt.canonical d := by
  intro d
  have hread : ofRaw "/a.yaml" misspelt = .ok d := rfl
  exact ⟨hread, ⟨_, rfl, .tail _ (.tail _ (.head _))⟩, ⟨_, rfl, .tail _ (.head _)⟩, (fields_accounted hread).1⟩

/-- Beside the list of nodes a misspelt title is lost. -/
theorem wrapping_key_unreported :
    let entries : List (String × Raw) := [("interview", .list []), ("titel", .str "A")]
    let d : Document := ⟨[], []⟩
    ofRaw "/a.yaml" (.object entries) = .ok d ∧ (Raw.object entries).canonical = .object entries ∧
      Wraps entries ∧ "titel" ∈ entries.map Prod.fst ∧ Node.isField "titel" = false ∧
      "titel" ∉ d.unknownFields := by
  refine ⟨rfl, rfl, by decide, by decide, by decide, by decide⟩

end Document
end Interview
