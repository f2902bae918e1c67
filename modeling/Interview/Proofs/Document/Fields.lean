import Interview.Document.Node

/-! The fields of a node by their names. Reading a field puts what is written under its name into the node,
and leaves all other fields as they are. -/

namespace Interview

inductive Slot where
  | text (content : Option String)
  | flag (content : Bool)
  | type (content : Option ValueType)
  | order (content : Option SortOrder)
  | value (content : Option Value)
  | values (content : Option (List Value))
  | texts (content : Option (List String))
  | nodes (content : Option (List Node))

namespace Slot

/-- Nothing is written as `null`. -/
def Given {α : Type} (means : α → Raw → Prop) : Option α → Raw → Prop
  | none, r => r = .null
  | some a, r => means a r

/-- The slot holds what is written. For nodes this says how many there are; what each of them holds is left to
the nodes. -/
def Holds : Slot → Raw → Prop
  | text content => Given (fun s r => r = .str s) content
  | flag content => fun r => r = .bool content
  | type content => Given (fun t r => r = .str t.name ∨ r = .object [(t.name, .null)]) content
  | order content => Given (fun o r => r = .str o.name ∨ r = .object [(o.name, .null)]) content
  | value content => Given (fun v r => r.value? = some v) content
  | values content => Given (fun vs r => ∃ items, r = .list items ∧ Raw.values? items = some vs) content
  | texts content => Given (fun ts r => r = .list (ts.map .str)) content
  | nodes content => Given (fun ns r => ∃ items, r = .list items ∧ items.length = ns.length) content

end Slot

namespace Node

def slots (n : Node) : List (String × Slot) :=
  [("kind", .text n.kind), ("name", .text n.name), ("disabled", .flag n.disabled),
    ("section", .text n.sectionName), ("key", .text n.key), ("type", .type n.type),
    ("value", .value n.value), ("parameterize", .text n.parameterize), ("default", .value n.default),
    ("default_from_file", .text n.defaultFromFile), ("force", .flag n.force), ("hidden", .flag n.hidden),
    ("multivalue", .flag n.multivalue), ("range", .text n.range), ("regexp", .text n.regexp),
    ("required", .flag n.required), ("values", .values n.values),
    ("values_from_file", .text n.valuesFromFile),
    ("values_from_directory", .text n.valuesFromDirectory), ("values_regexp", .text n.valuesRegexp),
    ("values_sort", .order n.valuesSort), ("title", .text n.title), ("text", .text n.text),
    ("interview", .nodes n.interview), ("match_key", .text n.matchKey),
    ("match_values", .values n.matchValues), ("match_not_values", .values n.matchNotValues),
    ("path", .text n.path), ("reset_keys", .texts n.resetKeys),
    ("reset_key_regexp", .text n.resetKeyRegexp)]

def fieldOf (name : String) : String := if name = matchAlias then "match_key" else name

def slot? (n : Node) (field : String) : Option Slot := n.slots.lookup field

/-- The node holds what is written under a name. -/
def Carries (n : Node) (name : String) (r : Raw) : Prop :=
  ∃ s, n.slot? (fieldOf name) = some s ∧ s.Holds r

variable {n n' : Node} {name : String} {r : Raw}

theorem given_of_optional {α : Type} {read : Raw → Option α} {means : α → Raw → Prop} {content : Option α}
    (hread : ∀ a, read r = some a → means a r) (h : optional read r = some content) :
    Slot.Given means content r := by
  cases r with
  | null => 
    obtain rfl := Option.some.inj h
    rfl
  | _ =>
    obtain ⟨a, ha, rfl⟩ := Option.map_eq_some_iff.mp h
    exact hread a ha

theorem eq_str_of_string? {s : String} (h : string? r = some s) : r = .str s := by
  cases r <;> cases h
  rfl

theorem holds_text {content : Option String} (h : optional string? r = some content) :
    (Slot.text content).Holds r :=
  given_of_optional (fun _ => eq_str_of_string?) h

theorem holds_flag {content : Bool} (h : flag? r = some content) : (Slot.flag content).Holds r := by
  cases r <;> cases h
  rfl

theorem choice?_eq_some {α : Type} {ofName? : String → Option α} {nameOf : α → String}
    (hname : ∀ s a, ofName? s = some a → s = nameOf a) {a : α} (h : choice? ofName? r = some a) :
    r = .str (nameOf a) ∨ r = .object [(nameOf a, .null)] := by
  unfold choice? at h
  split at h
  · next s => exact .inl (by rw [hname s a h])
  · next s => exact .inr (by rw [hname s a h])
  · cases h

theorem eq_name_of_type {s : String} {t : ValueType} (h : ValueType.ofName? s = some t) : s = t.name := by
  unfold ValueType.ofName? at h
  have hname := List.find?_some h
  exact (eq_of_beq hname).symm

theorem eq_name_of_order {s : String} {o : SortOrder} (h : SortOrder.ofName? s = some o) : s = o.name := by
  unfold SortOrder.ofName? at h
  have hname := List.find?_some h
  exact (eq_of_beq hname).symm

theorem holds_type {content : Option ValueType} (h : optional (choice? ValueType.ofName?) r = some content) :
    (Slot.type content).Holds r :=
  given_of_optional (fun _ => choice?_eq_some fun _ _ => eq_name_of_type) h

theorem holds_order {content : Option SortOrder} (h : optional (choice? SortOrder.ofName?) r = some content) :
    (Slot.order content).Holds r :=
  given_of_optional (fun _ => choice?_eq_some fun _ _ => eq_name_of_order) h

theorem holds_value {content : Option Value} (h : optional Raw.value? r = some content) :
    (Slot.value content).Holds r :=
  given_of_optional (fun _ hv => hv) h

theorem holds_values {content : Option (List Value)} (h : optional values? r = some content) :
    (Slot.values content).Holds r := by
  refine given_of_optional (fun vs hvs => ?_) h
  unfold values? at hvs
  split at hvs
  · next items => exact ⟨items, rfl, hvs⟩
  · cases hvs

theorem eq_map_of_mapM_string? {items : List Raw} {ts : List String} (h : items.mapM string? = some ts) :
    items = ts.map .str := by
  induction items generalizing ts with
  | nil =>
    obtain rfl : ts = [] := by simpa using h.symm
    rfl
  | cons item items ih =>
    obtain ⟨t, ht, rest, hrest, rfl⟩ := by simpa [List.mapM_cons, Option.bind_eq_some_iff] using h
    rw [List.map_cons, eq_str_of_string? ht, ih hrest]

theorem holds_texts {content : Option (List String)} (h : optional strings? r = some content) :
    (Slot.texts content).Holds r := by
  refine given_of_optional (fun ts hts => ?_) h
  unfold strings? at hts
  split at hts
  · next items => rw [eq_map_of_mapM_string? hts]
  · cases hts

/-- The slot under a name is the one that was read, and every other slot stays as it was. -/
theorem withField?_slots (h : n.withField? name r = some n') :
    n'.Carries name r ∧ ∀ field, field ≠ fieldOf name → n'.slot? field = n.slot? field := by
  unfold withField? at h
  -- one case for each name, and a last one for the names of no field
  split at h
  case h_31 => cases h
  all_goals
    obtain ⟨v, hv, rfl⟩ := Option.map_eq_some_iff.mp h
    refine ⟨⟨_, rfl, ?_⟩, fun field hf => ?_⟩
    · solve_by_elim [holds_text, holds_flag, holds_type, holds_order, holds_value, holds_values,
        holds_texts]
    · have hne := beq_false_of_ne hf
      simp only [fieldOf, matchAlias, String.reduceEq, if_false, if_true] at hne
      simp only [slot?, slots, List.lookup_cons, hne]

end Node
end Interview
