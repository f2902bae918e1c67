import Interview.Proofs.Document.Fields

/-! A node read field by field. Whether it is written as a mapping or as a list, each of its fields is put
into the node or reported, and what the first fields gave stays until the end. -/

namespace Interview.Node

/-- A field as it is written: the key or index that its place is spelled with, its name and its content. -/
structure Entry where
  label : String
  name : String
  data : Raw

def Entry.keyed (entry : String × Raw) : Entry := ⟨entry.1, entry.1, entry.2⟩

def positioned (index : Nat) : List String → List Raw → List Entry
  | name :: names, r :: rest => ⟨Nat.repr index, name, r⟩ :: positioned (index + 1) names rest
  | _, _ => []

def written : Raw → List Entry
  | .object entries => entries.map Entry.keyed
  | .list items => positioned 0 fieldNames items
  | _ => []

variable {place : String} {draft mid after : Draft} {e : Entry} {es : List Entry} {field u : String}

/-- A place is reported for a field: its own, where no node has such a field, or that of a field in a node
below. -/
def Entry.Reports (place : String) (e : Entry) (u : String) : Prop :=
  (isField e.name = false ∧ u = step place e.name) ∨
    (e.name = "interview" ∧ ∃ nodes unknown,
      optionalNodes? (children place e.label) e.data = some (nodes, unknown) ∧ u ∈ unknown)

inductive Reads (place : String) (draft : Draft) : Entry → Draft → Prop
  | nodes {label : String} {r : Raw} {nodes : Option (List Node)} {unknown : List String}
      (h : optionalNodes? (children place label) r = some (nodes, unknown)) :
      Reads place draft ⟨label, "interview", r⟩
        ⟨{ draft.node with interview := nodes }, draft.unknown ++ unknown⟩
  | content {label name : String} {r : Raw} {node : Node} (hn : name ≠ "interview")
      (hf : isField name = true) (h : draft.node.withField? name r = some node) :
      Reads place draft ⟨label, name, r⟩ ⟨node, draft.unknown⟩
  | other {label name : String} {r : Raw} (hf : isField name = false) :
      Reads place draft ⟨label, name, r⟩ ⟨draft.node, draft.unknown ++ [step place name]⟩

inductive ReadsAll (place : String) : List Entry → Draft → Draft → Prop
  | nil {draft : Draft} : ReadsAll place [] draft draft
  | cons {draft mid after : Draft} {e : Entry} {es : List Entry} (h : Reads place draft e mid)
      (hr : ReadsAll place es mid after) : ReadsAll place (e :: es) draft after

theorem readsAll_of_fields? {entries : List (String × Raw)} (h : fields? place draft entries = some after) :
    ReadsAll place (entries.map Entry.keyed) draft after := by
  induction entries generalizing draft with
  | nil =>
    obtain rfl : draft = after := by simpa [fields?] using h
    exact .nil
  | cons entry rest ih =>
    obtain ⟨name, r⟩ := entry
    rw [fields?] at h
    split at h
    · next hn =>
      subst hn
      obtain ⟨⟨nodes, unknown⟩, hnodes, h⟩ := Option.bind_eq_some_iff.mp h
      exact .cons (.nodes hnodes) (ih h)
    · next hn =>
      split at h
      · next hf =>
        obtain ⟨node, hnode, h⟩ := Option.bind_eq_some_iff.mp h
        exact .cons (.content hn hf hnode) (ih h)
      · next hf => exact .cons (.other (eq_false_of_ne_true hf)) (ih h)

theorem readsAll_of_positional? {index : Nat} {names : List String} {items : List Raw}
    (hnames : ∀ name ∈ names, isField name = true)
    (h : positional? place index names draft items = some after) :
    ReadsAll place (positioned index names items) draft after := by
  induction items generalizing index names draft with
  | nil =>
    obtain rfl : draft = after := by
      rw [positional?] at h
      split at h <;> simp_all
    cases names <;> exact .nil
  | cons r rest ih =>
    cases names with
    | nil => simp [positional?] at h
    | cons name names =>
      have hrest : ∀ name ∈ names, isField name = true := fun n hn => hnames n (List.mem_cons_of_mem _ hn)
      simp only [positional?] at h
      split at h
      · next hn =>
        subst hn
        obtain ⟨⟨nodes, unknown⟩, hnodes, h⟩ := Option.bind_eq_some_iff.mp h
        exact .cons (.nodes hnodes) (ih hrest h)
      · next hn =>
        obtain ⟨node, hnode, h⟩ := Option.bind_eq_some_iff.mp h
        exact .cons (.content hn (hnames name List.mem_cons_self) hnode) (ih hrest h)

theorem isField_of_mem_fieldNames {name : String} (h : name ∈ fieldNames) : isField name = true := by
  simp [isField, h]

theorem readsAll_of_ofRaw? {r : Raw} (h : ofRaw? place r = some draft) :
    ReadsAll place (written r) ⟨{}, []⟩ draft := by
  cases r with
  | object entries =>
    rw [ofRaw?] at h
    split at h
    · cases h
    · exact readsAll_of_fields? h
  | list items =>
    rw [ofRaw?] at h
    exact readsAll_of_positional? (fun _ => isField_of_mem_fieldNames) h
  | _ => simp [ofRaw?] at h

theorem nodes?_drafts {index : Nat} {items : List Raw} {nodes : List Node} {unknown : List String}
    (h : nodes? place index items = some (nodes, unknown)) :
    ∃ drafts : List Draft, nodes = drafts.map Draft.node ∧ unknown = drafts.flatMap Draft.unknown ∧
      drafts.length = items.length ∧
      ∀ i r, items[i]? = some r →
        ∃ draft, drafts[i]? = some draft ∧ ofRaw? (step place (Nat.repr (index + i))) r = some draft := by
  induction items generalizing index nodes unknown with
  | nil =>
    obtain ⟨rfl, rfl⟩ : nodes = [] ∧ unknown = [] := by simpa [nodes?, eq_comm] using h
    exact ⟨[], rfl, rfl, rfl, by simp⟩
  | cons r rest ih =>
    rw [nodes?] at h
    obtain ⟨draft, hdraft, h⟩ := Option.bind_eq_some_iff.mp h
    obtain ⟨⟨more, others⟩, hrest, h⟩ := Option.bind_eq_some_iff.mp h
    obtain ⟨rfl, rfl⟩ : draft.node :: more = nodes ∧ draft.unknown ++ others = unknown := by simpa using h
    obtain ⟨drafts, rfl, rfl, hlen, hat⟩ := ih hrest
    refine ⟨draft :: drafts, rfl, rfl, congrArg (· + 1) hlen, fun i r' hi => ?_⟩
    cases i with
    | zero =>
      obtain rfl : r = r' := by simpa using hi
      exact ⟨draft, rfl, hdraft⟩
    | succ i =>
      obtain ⟨draft', hd, hr⟩ := hat i r' (by simpa using hi)
      exact ⟨draft', by simpa using hd, by rwa [show index + (i + 1) = index + 1 + i by omega]⟩

theorem holds_nodes {r : Raw} {nodes : Option (List Node)} {unknown : List String}
    (h : optionalNodes? place r = some (nodes, unknown)) : (Slot.nodes nodes).Holds r := by
  cases r with
  | null =>
    obtain ⟨rfl, -⟩ : nodes = none ∧ unknown = [] := by simpa [optionalNodes?, eq_comm] using h
    rfl
  | list items =>
    rw [optionalNodes?] at h
    obtain ⟨⟨ns, us⟩, hns, h⟩ := Option.map_eq_some_iff.mp h
    obtain ⟨rfl, rfl⟩ : some ns = nodes ∧ us = unknown := by simpa using h
    obtain ⟨drafts, rfl, -, hlen, -⟩ := nodes?_drafts hns
    exact ⟨items, rfl, by simp [hlen]⟩
  | _ => simp [optionalNodes?] at h

namespace Reads

theorem carries (h : Reads place draft e mid) (hf : isField e.name = true) :
    mid.node.Carries e.name e.data := by
  cases h with
  | nodes h => exact ⟨_, rfl, holds_nodes h⟩
  | content _ _ h => exact (withField?_slots h).1
  | other ho => exact absurd hf (by simp [ho])

theorem slot?_of_ne (h : Reads place draft e mid) (hne : field ≠ fieldOf e.name) :
    mid.node.slot? field = draft.node.slot? field := by
  cases h with
  | nodes h =>
    have hne : (field == "interview") = false := beq_false_of_ne hne
    simp only [slot?, slots, List.lookup_cons, hne]
  | content _ _ h => exact (withField?_slots h).2 field hne
  | other _ => rfl

theorem mem_unknown (h : Reads place draft e mid) :
    u ∈ mid.unknown ↔ u ∈ draft.unknown ∨ e.Reports place u := by
  cases h with
  | @nodes label r nodes unknown h =>
    have hfield : isField "interview" = true := by decide
    have hone : (∃ ns us, optionalNodes? (children place label) r = some (ns, us) ∧ u ∈ us) ↔ u ∈ unknown := by
      constructor
      · rintro ⟨ns, us, hns, hu⟩
        obtain ⟨rfl, rfl⟩ : nodes = ns ∧ unknown = us := by simpa [h] using hns
        exact hu
      · exact fun hu => ⟨nodes, unknown, h, hu⟩
    simp [Entry.Reports, hfield, hone]
  | content hn hf _ => simp [Entry.Reports, hn, hf]
  | @other label name r hf =>
    have hn : name ≠ "interview" := by
      rintro rfl
      cases hf
    simp [Entry.Reports, hn, hf]

end Reads

namespace ReadsAll

theorem mem_unknown (h : ReadsAll place es draft after) :
    u ∈ after.unknown ↔ u ∈ draft.unknown ∨ ∃ e ∈ es, e.Reports place u := by
  induction h with
  | nil => simp
  | cons h _ ih => simp [ih, h.mem_unknown, or_assoc]

theorem slot?_of_not_mem (h : ReadsAll place es draft after) (hf : field ∉ es.map fun e => fieldOf e.name) :
    after.node.slot? field = draft.node.slot? field := by
  induction h with
  | nil => rfl
  | cons h _ ih =>
    obtain ⟨hne, hrest⟩ := not_or.mp fun hm => hf (List.mem_cons.mpr hm)
    rw [ih hrest, h.slot?_of_ne hne]

/-- Where no field is written twice, each of them is in the node at the end as it was read. -/
theorem slot?_of_mem (h : ReadsAll place es draft after) (hd : (es.map fun e => fieldOf e.name).Nodup)
    (he : e ∈ es) :
    ∃ before mid, Reads place before e mid ∧ after.node.slot? (fieldOf e.name) = mid.node.slot? (fieldOf e.name) := by
  induction h with
  | nil => cases he
  | @cons draft mid after first es h hr ih =>
    obtain ⟨hnot, hd⟩ := List.nodup_cons.mp hd
    rcases List.mem_cons.mp he with rfl | he
    · -- no later field has this slot
      exact ⟨draft, mid, h, hr.slot?_of_not_mem hnot⟩
    · exact ih hd he

theorem carries (h : ReadsAll place es draft after) (hd : (es.map fun e => fieldOf e.name).Nodup)
    (he : e ∈ es) (hf : isField e.name = true) : after.node.Carries e.name e.data := by
  obtain ⟨before, mid, hread, hslot⟩ := h.slot?_of_mem hd he
  obtain ⟨s, hs, hholds⟩ := hread.carries hf
  exact ⟨s, hslot.trans hs, hholds⟩

theorem interview_eq (h : ReadsAll place es draft after) (hd : (es.map fun e => fieldOf e.name).Nodup)
    (he : e ∈ es) (hn : e.name = "interview") :
    ∃ unknown, optionalNodes? (children place e.label) e.data = some (after.node.interview, unknown) := by
  obtain ⟨before, mid, hread, hslot⟩ := h.slot?_of_mem hd he
  cases hread with
  | @nodes label r nodes unknown h =>
    have hsame : some (Slot.nodes after.node.interview) = some (Slot.nodes nodes) := hslot
    obtain rfl : after.node.interview = nodes := by simpa using hsame
    exact ⟨unknown, h⟩
  | content hne _ _ => exact absurd hn hne
  | other hf =>
    subst hn
    cases hf

end ReadsAll
end Interview.Node
