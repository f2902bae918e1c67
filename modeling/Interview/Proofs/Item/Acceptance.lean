import Interview.Item.Basic
import Interview.Proofs.Outcome
import Interview.Proofs.Settings.Writing

/-! What an item lets into the store. Every stored value has passed the declared type, the number of
values and the rules, whether it was given or is the default; a refused one leaves no trace. -/

namespace Interview

/-- The values that the rules judge: those of a list, or a value on its own. -/
def Value.elements : Value → List Value
  | .array items => items
  | v => [v]

inductive Value.OfScalarType : ValueType → Value → Prop
  | bool (b : Bool) : OfScalarType .bool (.bool b)
  | int (n : Int64) : OfScalarType .int (.int n)
  | float (x : Number.Binary64) : OfScalarType .float (.float x)
  | str (s : String) : OfScalarType .str (.str s)

/-- A list type asks for a list, a scalar type for one value of it or a list of such. -/
def Value.OfType : ValueType → Value → Prop
  | .csv, v => ∃ items, v = .array items
  | .ssv, v => ∃ items, v = .array items
  | type, v => v.OfScalarType type ∨ ∃ items, v = .array items ∧ ∀ w ∈ items, w.OfScalarType type

def Range.Covers (v : Value) : Range → Prop
  | .int low high step =>
    ∃ n, v.toInteger = .ok n ∧ low ≤ n ∧ n ≤ high ∧ step.toInt ∣ n.toInt - low.toInt
  | .float low high step =>
    ∃ x, v.toFloat = .ok x ∧ low.le x ∧ x.le high ∧ (minus x low).isMultipleOf step

/-- What an item declares of its value. Of allowed values, pattern and range the first one counts. -/
structure Item.Admits (item : Item) (v : Value) : Prop where
  type : ∀ type, item.node.type = some type → v.OfType type
  single : ∀ items, v = .array items → item.node.multivalue = true
  required : item.node.required = true → ∃ w ∈ v.elements, w ≠ .str "" ∧ w ≠ .array []
  allowed : ∀ values, item.node.values = some values →
    ∀ w ∈ v.elements, ∃ a ∈ values, a.isSame w = true
  pattern : item.node.values = none → ∀ p, item.pattern = some p →
    ∀ w ∈ v.elements, p.matchesAtStart w.text = true
  range : item.node.values = none → item.pattern = none → ∀ r, item.range = some r →
    ∀ w ∈ v.elements, r.Covers w

namespace Value

theorem coerceScalar_ofScalarType {type : ValueType} {v w : Value}
    (h : coerceScalar type v = .ok w) (hc : type ≠ .csv) (hs : type ≠ .ssv) :
    w.OfScalarType type := by
  cases type with
  | csv => exact absurd rfl hc
  | ssv => exact absurd rfl hs
  | bool =>
    cases v <;> simp only [coerceScalar] at h <;> try (split at h)
    all_goals cases h
    all_goals constructor
  | int =>
    simp only [coerceScalar] at h
    split at h <;> cases h
    constructor
  | float =>
    cases v <;> simp only [coerceScalar] at h <;> try (split at h)
    all_goals cases h
    all_goals constructor
  | str =>
    cases v <;> simp only [coerceScalar] at h <;> cases h
    all_goals constructor

theorem split_eq_array {cut : List Char → List (List Char)} {v w : Value}
    (h : v.split cut = .ok w) : ∃ items, w = .array items := by
  cases v <;> simp only [split] at h <;> cases h
  all_goals exact ⟨_, rfl⟩

theorem coerce_scalar {type : ValueType} (hc : type ≠ .csv) (hs : type ≠ .ssv) (v : Value) :
    coerce (some type) v =
      match v with
      | .array items => (items.mapM (coerceScalar type)).map .array
      | v => coerceScalar type v := by
  cases type with
  | csv => exact absurd rfl hc
  | ssv => exact absurd rfl hs
  | bool | float | int | str => rfl

theorem ofType_scalar {type : ValueType} (hc : type ≠ .csv) (hs : type ≠ .ssv) (v : Value) :
    v.OfType type ↔
      v.OfScalarType type ∨ ∃ items, v = .array items ∧ ∀ w ∈ items, w.OfScalarType type := by
  cases type with
  | csv => exact absurd rfl hc
  | ssv => exact absurd rfl hs
  | bool | float | int | str => rfl

theorem coerce_ofType {type : ValueType} {v w : Value} (h : coerce (some type) v = .ok w) :
    w.OfType type := by
  by_cases hc : type = .csv
  · subst hc
    exact split_eq_array h
  by_cases hs : type = .ssv
  · subst hs
    exact split_eq_array h
  rw [coerce_scalar hc hs] at h
  rw [ofType_scalar hc hs]
  split at h
  · obtain ⟨us, hus, rfl⟩ := map_eq_ok.mp h
    refine .inr ⟨us, rfl, fun u hu => ?_⟩
    obtain ⟨a, _, ha⟩ := exists_of_mem_mapM hus hu
    exact coerceScalar_ofScalarType ha hc hs
  · exact .inl (coerceScalar_ofScalarType h hc hs)

theorem isEmpty_eq_true {v : Value} : v.isEmpty = true ↔ v = .str "" ∨ v = .array [] := by
  cases v <;> simp [isEmpty]

end Value

theorem Range.contains_eq_ok_true {r : Range} {v : Value} :
    r.contains v = .ok true ↔ r.Covers v := by
  cases r with
  | int low high step =>
    simp only [contains, Covers, map_eq_ok, Bool.and_eq_true, decide_eq_true_eq, beq_iff_eq,
      Int.dvd_iff_emod_eq_zero, and_assoc]
  | float low high step =>
    simp only [contains, Covers, map_eq_ok, Bool.and_eq_true, and_assoc]

namespace Rules

theorem checkAllowed_eq_ok {allowed : List Value} {v : Value} :
    checkAllowed allowed v = .ok () ↔ ∃ a ∈ allowed, a.isSame v = true := by
  unfold checkAllowed
  split <;> simp_all

theorem checkPattern_eq_ok {p : Pattern} {v : Value} :
    checkPattern p v = .ok () ↔ p.matchesAtStart v.text = true := by
  unfold checkPattern
  split <;> simp_all

theorem checkRange_eq_ok {r : Range} {v : Value} : checkRange r v = .ok () ↔ r.Covers v := by
  rw [← Range.contains_eq_ok_true]
  unfold checkRange
  rw [bind_eq_ok]
  constructor
  · rintro ⟨b, hb, h⟩
    cases b with
    | true => exact hb
    | false => simp at h
  · exact fun h => ⟨true, h, rfl⟩

theorem required_of_check {r : Rules} {vs : List Value} (h : r.check vs = .ok ())
    (hr : r.required = true) : ∃ v ∈ vs, v ≠ .str "" ∧ v ≠ .array [] := by
  have hall : ¬ vs.all Value.isEmpty = true := by
    intro he
    simp [check, hr, he] at h
  simpa [Value.isEmpty_eq_true, ← Bool.not_eq_true] using hall

theorem check_eq_ok {r : Rules} {vs : List Value} (h : r.check vs = .ok ()) :
    match r.values, r.pattern, r.range with
    | some allowed, _, _ => vs.forM (checkAllowed allowed) = .ok ()
    | none, some p, _ => vs.forM (checkPattern p) = .ok ()
    | none, none, some range => vs.forM (checkRange range) = .ok ()
    | none, none, none => True := by
  unfold check at h
  split at h
  · cases h
  · split <;> simp_all

end Rules

namespace Item

theorem elements_eq_ok {item : Item} {v : Value} {vs : List Value}
    (h : item.elements v = .ok vs) :
    vs = v.elements ∧ ∀ items, v = .array items → item.node.multivalue = true := by
  cases v with
  | array items =>
    simp only [elements] at h
    split at h
    · next hm =>
      cases h
      exact ⟨rfl, fun _ _ => hm⟩
    · cases h
  | str | int | float | bool | datetime | table =>
    cases h
    exact ⟨rfl, fun _ hi => Value.noConfusion hi⟩

/-- An accepted value is the chosen one brought to the declared type, and it has passed the rules. -/
theorem accept_eq_ok {item : Item} {given : Option Value} {w : Value}
    (h : item.accept given = .ok w) :
    ∃ v, item.chosen given = .ok v ∧ v.coerce item.node.type = .ok w ∧
      ∃ vs, item.elements w = .ok vs ∧ item.rules.check vs = .ok () := by
  unfold accept at h
  obtain ⟨v, hv, h⟩ := bind_eq_ok.mp h
  refine ⟨v, hv, ?_⟩
  dsimp only at h
  split at h
  · next u hu =>
    obtain ⟨u', hc, hu⟩ := bind_eq_ok.mp hu
    obtain ⟨vs, hs, hu⟩ := bind_eq_ok.mp hu
    obtain ⟨_, hr, hu⟩ := bind_eq_ok.mp hu
    cases hu
    cases h
    exact ⟨hc, vs, hs, hr⟩
  · cases h

theorem admits_of_accept {item : Item} {given : Option Value} {w : Value}
    (h : item.accept given = .ok w) : item.Admits w := by
  obtain ⟨v, _, hc, vs, hs, hr⟩ := accept_eq_ok h
  obtain ⟨rfl, hm⟩ := elements_eq_ok hs
  have hrules := Rules.check_eq_ok hr
  constructor
  · intro type ht
    rw [ht] at hc
    exact Value.coerce_ofType hc
  · exact hm
  · exact Rules.required_of_check hr
  · intro values hv
    simp only [rules, hv] at hrules
    exact fun u hu => Rules.checkAllowed_eq_ok.mp (forM_eq_ok.mp hrules u hu)
  · intro hv p hp
    simp only [rules, hv, hp] at hrules
    exact fun u hu => Rules.checkPattern_eq_ok.mp (forM_eq_ok.mp hrules u hu)
  · intro hv hp r hr
    simp only [rules, hv, hp, hr] at hrules
    exact fun u hu => Rules.checkRange_eq_ok.mp (forM_eq_ok.mp hrules u hu)

/-- An answer is stored exactly if it is accepted and its value can be written under the item's key. -/
theorem write_eq_ok {item : Item} {store after : Settings} {given : Option Value} {w : Value} :
    item.write store given = (.ok w, after) ↔
      item.accept given = .ok w ∧ store.write item.key w = (.ok (), after) := by
  constructor
  · intro h
    unfold write at h
    split at h
    · cases h
    · next v ha =>
      split at h
      · next stored hw =>
        cases h
        exact ⟨ha, hw⟩
      · cases h
  · rintro ⟨ha, hw⟩
    simp [write, ha, hw]

/-- A default stands in for a blank, and a notice takes nothing else. -/
theorem chosen_eq_ok {item : Item} {given : Option Value} {v : Value} :
    item.chosen given = .ok v ↔
      item.node.default = some v ∧ (item.kind = .notice ∨ Value.isBlank given = true) ∨
      item.kind ≠ .notice ∧ given = some v ∧
        (item.node.default = none ∨ Value.isBlank given = false) := by
  by_cases hk : item.kind = .notice
  · cases hd : item.node.default with
    | none => simp [chosen, hk, hd, bind, Except.bind]
    | some d => simp [chosen, hk, hd, bind, Except.bind]
  · cases hd : item.node.default with
    | none => cases given <;> simp [chosen, hk, hd, bind, Except.bind]
    | some d =>
      cases given with
      | none => simp [chosen, hk, hd, Value.isBlank, bind, Except.bind]
      | some u =>
        by_cases hb : Value.isBlank (some u) = true
        · simp [chosen, hk, hd, hb, bind, Except.bind]
        · simp [chosen, hk, hd, hb, bind, Except.bind]

theorem chosen_default {item : Item} {given : Option Value} {default : Value}
    (hd : item.node.default = some default)
    (h : item.kind = .notice ∨ Value.isBlank given = true) : item.chosen given = .ok default :=
  chosen_eq_ok.mpr (.inl ⟨hd, h⟩)

/-- A refused answer leaves the store exactly as it was, with no table made on the way. A stored one
is found at the item's key, is all that was written, and meets everything the item declares; this
goes for the default too, where it stands in for a blank or belongs to a notice. -/
theorem write_admits (item : Item) (store : Settings) (given : Option Value) :
    match item.write store given with
    | (.error _, after) => after = store
    | (.ok w, after) =>
      store.write item.key w = (.ok (), after) ∧ after.get? item.key = some w ∧
      (∀ other, ¬ Key.segments other <+: Key.segments item.key →
        ¬ Key.segments item.key <+: Key.segments other → after.get? other = store.get? other) ∧
      item.Admits w ∧
      ((item.kind = .notice ∨ Value.isBlank given = true) →
        ∀ default, item.node.default = some default → default.coerce item.node.type = .ok w) := by
  unfold write
  cases ha : item.accept given with
  | error e => rfl
  | ok w =>
    cases hw : store.write item.key w with
    | mk outcome after =>
      cases outcome with
      | error e => simpa [hw] using Settings.write_error hw
      | ok u =>
        simp only [hw]
        refine ⟨trivial, Settings.get?_write_self hw, ?_, admits_of_accept ha, ?_⟩
        · exact fun other hk ho => Settings.get?_write_of_incomparable hw hk ho
        · intro h default hd
          obtain ⟨v, hv, hc, _⟩ := accept_eq_ok ha
          rw [chosen_default hd h] at hv
          cases hv
          exact hc

end Item
end Interview
