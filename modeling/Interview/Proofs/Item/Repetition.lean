import Interview.Proofs.Item.Acceptance
import Interview.Proofs.Number.Shortest
import Interview.Proofs.Settings.Placing

/-! Giving the stored value once more. The values of a type are those that coercion to it leaves alone,
and only the empty text is written as nothing. So the same value is chosen, judged and stored again, also
where an empty text is stored and the default steps in for it. -/

namespace Interview

namespace Value

variable {type : Option ValueType} {v w : Value}

theorem coerceScalar_eq_self {type : ValueType} (h : w.OfScalarType type) :
    coerceScalar type w = .ok w := by
  cases h with
  | bool | int | float | str => rfl

/-- Coercion leaves the values of the type alone, and no others. -/
theorem coerce_eq_self_iff {type : ValueType} : w.coerce (some type) = .ok w ↔ w.OfType type := by
  refine ⟨coerce_ofType, fun h => ?_⟩
  by_cases hc : type = .csv
  · subst hc
    obtain ⟨items, rfl⟩ := h
    rfl
  by_cases hs : type = .ssv
  · subst hs
    obtain ⟨items, rfl⟩ := h
    rfl
  rw [coerce_scalar hc hs]
  rw [ofType_scalar hc hs] at h
  rcases h with h | ⟨items, rfl, h⟩
  · have hself := coerceScalar_eq_self h
    cases h with
    | bool | int | float | str => exact hself
  · have hitems := mapM_eq_self fun u hu => coerceScalar_eq_self (h u hu)
    exact map_eq_ok.mpr ⟨items, hitems, rfl⟩

theorem coerce_again (h : v.coerce type = .ok w) : w.coerce type = .ok w := by
  cases type with
  | none => rfl
  | some type => exact coerce_eq_self_iff.mpr (coerce_ofType h)

theorem text_eq_empty (h : v.text = "") : v = .str "" := by
  have hlist : v.text.toList = [] := by rw [h]; rfl
  cases v with
  | str s => exact congrArg Value.str h
  | int n => exact absurd (by simpa [text] using hlist) (Number.intText_ne_nil n.toInt)
  | float x => exact absurd (by simpa [text] using hlist) (Number.floatText_ne_nil x)
  | bool b => cases b <;> exact absurd h (by decide)
  | datetime d => simp [text, Toml.valueText] at hlist
  | array items => simp [text, Toml.valueText, Toml.inlineText] at hlist
  | table entries =>
    cases entries with
    | nil => simp [text, Toml.valueText, Toml.inlineText] at hlist
    | cons e es => simp [text, Toml.valueText, Toml.inlineText] at hlist

theorem coerceScalar_str (h : coerceScalar .str v = .ok w) : w = .str v.text := by
  cases v <;> cases h
  all_goals rfl

theorem coerce_eq_blank (h : v.coerce type = .ok (.str "")) : v = .str "" := by
  cases type with
  | none => exact Except.ok.inj h
  | some type =>
    have htype := coerce_ofType h
    cases type with
    | csv | ssv =>
      obtain ⟨_, he⟩ := htype
      cases he
    | bool | int | float =>
      rcases htype with hs | ⟨_, he, _⟩
      · cases hs
      · cases he
    | str =>
      rw [coerce_scalar (by decide) (by decide)] at h
      split at h
      · obtain ⟨_, _, he⟩ := map_eq_ok.mp h
        cases he
      · exact text_eq_empty (Value.str.inj (coerceScalar_str h)).symm

theorem isBlank_some_iff : isBlank (some v) = true ↔ v = .str "" := by
  cases v <;> simp [isBlank]

theorem isBlank_eq_false_of_coerce (h : v.coerce type = .ok w) (hv : isBlank (some v) = false) :
    isBlank (some w) = false := by
  by_contra hw
  obtain rfl := isBlank_some_iff.mp (Bool.ne_false_iff.mp hw)
  obtain rfl := coerce_eq_blank h
  cases hv

end Value

theorem Settings.write_again {s after : Settings} {key : String} {v : Value}
    (h : s.write key v = (.ok (), after)) : after.write key v = (.ok (), after) := by
  rcases s.write_cases key v with ⟨_, hw⟩ | ⟨hn, hw⟩
  · rw [hw] at h
    cases h
  rw [hw] at h
  obtain rfl : _ = after := congrArg Prod.snd h
  have hrepeat := Table.write_write (Table.open_of_write hn) v v
  have hsegments : ¬ (Key.segments key).any String.isEmpty = true := by
    intro he
    simp [write, he] at hw
  simp [write, hsegments, hrepeat]

namespace Item

variable {item : Item} {given : Option Value} {v w : Value}

theorem chosen_again (hv : item.chosen given = .ok v) (hc : v.coerce item.node.type = .ok w) :
    ∃ u, item.chosen (some w) = .ok u ∧ u.coerce item.node.type = .ok w := by
  rcases chosen_eq_ok.mp hv with ⟨hd, -⟩ | ⟨hk, rfl, hgiven⟩
  · -- the default was stored, and a notice or a blank brings it back
    by_cases hw : item.kind = .notice ∨ Value.isBlank (some w) = true
    · exact ⟨v, chosen_eq_ok.mpr (.inl ⟨hd, hw⟩), hc⟩
    · obtain ⟨hk, hb⟩ := not_or.mp hw
      have hb : Value.isBlank (some w) = false := Bool.eq_false_iff.mpr hb
      exact ⟨w, chosen_eq_ok.mpr (.inr ⟨hk, rfl, .inr hb⟩), Value.coerce_again hc⟩
  · have hw : item.node.default = none ∨ Value.isBlank (some w) = false :=
      hgiven.imp_right fun hb => Value.isBlank_eq_false_of_coerce hc hb
    exact ⟨w, chosen_eq_ok.mpr (.inr ⟨hk, rfl, hw⟩), Value.coerce_again hc⟩

theorem accept_again (h : item.accept given = .ok w) : item.accept (some w) = .ok w := by
  obtain ⟨v, hv, hc, vs, hs, hr⟩ := accept_eq_ok h
  obtain ⟨u, hu, hc⟩ := chosen_again hv hc
  simp [accept, hu, hc, hs, hr, bind, Except.bind]

/-- A coerced value is of its type already, and a stored value is accepted again: it is stored once more,
which leaves the store as it is. This goes for notices too, whose default is stored in any case. -/
theorem accepted_again :
    (∀ (type : Option ValueType) (v w : Value), v.coerce type = .ok w → w.coerce type = .ok w) ∧
    ∀ (item : Item) (store after : Settings) (given : Option Value) (w : Value),
      item.write store given = (.ok w, after) → item.write after (some w) = (.ok w, after) := by
  refine ⟨fun type v w h => Value.coerce_again h, ?_⟩
  intro item store after given w h
  obtain ⟨ha, hw⟩ := write_eq_ok.mp h
  exact write_eq_ok.mpr ⟨accept_again ha, Settings.write_again hw⟩

/-- A list cut from a text is one already, and an empty text that is stored as the default is stored again. -/
theorem accepted_again_where_blank :
    let hosts : Value := .array [.str "db", .str "mail"]
    let item : Item := { place := [0], kind := .question, key := "mail.note", range := none, pattern := none,
                         node := { type := some .str, default := some (.str "") } }
    let stored : Settings := ⟨[("mail", .table [("note", .str "")])]⟩
    (Value.str " db  mail").coerce (some .ssv) = .ok hosts ∧ hosts.coerce (some .ssv) = .ok hosts ∧
      item.write .empty none = (.ok (.str ""), stored) ∧
      item.write stored (some (.str "")) = (.ok (.str ""), stored) := by
  intro hosts item stored
  have hcut : (Value.str " db  mail").coerce (some .ssv) = .ok hosts := by rfl
  have hkey : item.key = "mail.note" := rfl
  have hstored : Settings.empty.write item.key (.str "") = (.ok (), stored) := by
    rw [hkey]
    rfl
  have hwrite : item.write .empty none = (.ok (.str ""), stored) := write_eq_ok.mpr ⟨rfl, hstored⟩
  exact ⟨hcut, accepted_again.1 _ _ _ hcut, hwrite, accepted_again.2 _ _ _ _ _ hwrite⟩

end Item
end Interview
