import Interview.Proofs.Item.SortedChoices
import Interview.Proofs.Number.Decimal
import Interview.Proofs.Settings.Storing

/-! Choosing one of the values on offer by its text. The values on offer take a declared type of integers
or texts, and so does the answer, so that both meet again. Truth values are not among these types: there
the answer becomes a truth value, and the values on offer stay words. -/

namespace Interview

open Number

namespace Value

variable {v w : Value} {type : ValueType}

theorem int_text_inj {m n : Int64} (h : (Value.int m).text = (Value.int n).text) : m = n :=
  Int64.toInt_inj.mp (intText_inj (String.ofList_injective h))

theorem bool_text_inj {a b : Bool} (h : (Value.bool a).text = (Value.bool b).text) : a = b := by
  revert h
  cases a <;> cases b <;> decide

theorem int_text_ne_bool_text (n : Int64) (b : Bool) : (Value.int n).text ≠ (Value.bool b).text := by
  intro h
  have hlist : intText n.toInt = (Value.bool b).text.toList := by
    simpa [text] using congrArg String.toList h
  obtain ⟨c, hc, hletter⟩ : ∃ c ∈ (Value.bool b).text.toList, ¬ (c = '-' ∨ isDigit c = true) := by
    cases b with
    | false => exact ⟨'f', by simp [text], by decide⟩
    | true => exact ⟨'t', by simp [text], by decide⟩
  exact hletter (mem_intText (hlist ▸ hc))

theorem Plain.isSame_iff (hv : v.Plain) (hw : w.Plain) : v.isSame w = true ↔ v.text = w.text := by
  have hsame {x y : String} (hb : v.isSame w = (x == y)) : v.isSame w = true ↔ x = y := by
    rw [hb, beq_iff_eq]
  cases hv with
  | str s =>
    refine hsame ?_
    cases hw <;> rfl
  | int m =>
    cases hw with
    | str t => exact hsame rfl
    | int n =>
      have hbeq : (Value.int m).isSame (.int n) = (m == n) := rfl
      rw [hbeq, beq_iff_eq]
      exact ⟨congrArg fun k => (Value.int k).text, int_text_inj⟩
    | bool b => exact iff_of_false Bool.false_ne_true (int_text_ne_bool_text m b)
  | bool a =>
    cases hw with
    | str t => exact hsame rfl
    | int n => exact iff_of_false Bool.false_ne_true (int_text_ne_bool_text n a).symm
    | bool b =>
      have hbeq : (Value.bool a).isSame (.bool b) = (a == b) := rfl
      rw [hbeq, beq_iff_eq]
      exact ⟨congrArg fun c => (Value.bool c).text, bool_text_inj⟩

theorem Plain.isEmpty_eq_false (hv : v.Plain) (h : v.text ≠ "") : v.isEmpty = false := by
  cases hv with
  | str s => exact Bool.eq_false_iff.mpr fun he => h (String.isEmpty_iff.mp he)
  | int | bool => rfl

theorem coerce_text (h : w.OfScalarType type) (hf : type ≠ .float) :
    coerce (some type) (.str w.text) = .ok w := by
  cases h with
  | bool b => cases b <;> rfl
  | int n =>
    have hn : toInteger (.str (Value.int n).text) = .ok n := by
      simp [toInteger, text, trim_intText, int64?_intText]
    simp [coerce, coerceScalar, hn]
  | float => exact absurd rfl hf
  | str s => rfl

end Value

namespace Item

variable {sp : SearchPath} {fs : FileSystem} {n : Node} {kind : Kind} {place : WalkPath}
  {store : Settings} {item : Item} {values : List Value} {a w : Value}

theorem choice_ofScalarType (hr : resolve sp fs n kind place store = .ok item)
    (hv : item.node.values = some values) (ha : a ∈ values) {type : ValueType}
    (ht : n.type = some type) (hs : type = .int ∨ type = .float ∨ type = .str) :
    a.OfScalarType type := by
  have hlists := (resolved hr).values
  rw [hv] at hlists
  cases hlists with
  | listed _ _ hkept =>
    rw [ht] at hkept
    exact typed_ofScalarType hkept hs ((sorted_perm _ _).mem_iff.mp ha)

theorem chosen_given (hk : item.kind ≠ .notice) {s : String} (hs : s ≠ "") :
    item.chosen (some (.str s)) = .ok (.str s) :=
  chosen_eq_ok.mpr (.inr ⟨hk, rfl, .inr (by simpa [Value.isBlank] using hs)⟩)

theorem accept_of_same (hk : item.kind ≠ .notice) (hv : item.node.values = some values)
    (ha : a ∈ values) {s : String} (hs : s ≠ "") (hc : (Value.str s).coerce item.node.type = .ok w)
    (hw : w.Plain) (hempty : w.isEmpty = false) (hsame : a.isSame w = true) :
    item.accept (some (.str s)) = .ok w := by
  have hchosen := chosen_given hk hs
  have helements : item.elements w = .ok [w] := by
    cases hw <;> rfl
  have hallowed : Rules.checkAllowed values w = .ok () :=
    Rules.checkAllowed_eq_ok.mpr ⟨a, ha, hsame⟩
  have hcheck : item.rules.check [w] = .ok () := by
    simp [Rules.check, rules, hempty, hv, hallowed]
  simp [accept, hchosen, hc, helements, hcheck, bind, Except.bind]

/-- A value on offer can be chosen by its text, and the same value is stored then, whatever else is
declared. Only where a truth value is asked for, nothing but the two truth values can be chosen so. -/
theorem choice_accepted_iff (hr : resolve sp fs n .question place store = .ok item)
    (hv : item.node.values = some values) (ha : a ∈ values) (hp : a.Plain) (hne : a.text ≠ "")
    (ht : n.type = none ∨ n.type = some .bool ∨ n.type = some .int ∨ n.type = some .str)
    {s : Settings} {u : Value} (hw : (s.write item.key u).1 = .ok ()) :
    (∃ w after, item.write s (some (.str a.text)) = (.ok w, after) ∧
        after.get? item.key = some w ∧ a.isSame w = true) ↔
      (n.type = some .bool → a.text = "true" ∨ a.text = "false") := by
  have htype : item.node.type = n.type := by rw [(resolved hr).node]
  have hkind : item.kind ≠ .notice := by
    rw [(resolved hr).kind]
    decide
  constructor
  · rintro ⟨w, after, hwrite, -, hsame⟩ hbool
    obtain ⟨v, hchosen, hc, -⟩ := accept_eq_ok (write_eq_ok.mp hwrite).1
    obtain rfl : v = .str a.text := Except.ok.inj (hchosen.symm.trans (chosen_given hkind hne))
    rw [htype, hbool] at hc
    have hscalar : Value.coerceScalar .bool (.str a.text) = .ok w := hc
    cases Value.coerceScalar_ofScalarType hscalar (by decide) (by decide) with
    | bool b =>
      have htext := (hp.isSame_iff (.bool b)).mp hsame
      cases b with
      | true => exact .inl htext
      | false => exact .inr htext
  · intro h
    obtain ⟨w, hwp, hc, htext⟩ : ∃ w : Value, w.Plain ∧
        (Value.str a.text).coerce item.node.type = .ok w ∧ a.text = w.text := by
      rw [htype]
      rcases ht with ht | ht | ht | ht
      · exact ⟨.str a.text, .str _, by rw [ht]; rfl, rfl⟩
      · rcases h ht with htrue | hfalse
        · exact ⟨.bool true, .bool _, by rw [ht, htrue]; rfl, htrue⟩
        · exact ⟨.bool false, .bool _, by rw [ht, hfalse]; rfl, hfalse⟩
      · have hint := choice_ofScalarType hr hv ha ht (by decide)
        exact ⟨a, hp, by rw [ht, Value.coerce_text hint (by decide)], rfl⟩
      · have hstr := choice_ofScalarType hr hv ha ht (by decide)
        exact ⟨a, hp, by rw [ht, Value.coerce_text hstr (by decide)], rfl⟩
    have hsame : a.isSame w = true := (hp.isSame_iff hwp).mpr htext
    have haccept : item.accept (some (.str a.text)) = .ok w :=
      accept_of_same hkind hv ha hne hc hwp (hwp.isEmpty_eq_false (htext ▸ hne)) hsame
    have hfree : (s.write item.key w).1 = .ok () :=
      Settings.write_eq_ok_iff.mpr (Settings.write_eq_ok_iff.mp hw)
    have hstored : s.write item.key w = (.ok (), (s.write item.key w).2) := Prod.ext hfree rfl
    exact ⟨w, _, write_eq_ok.mpr ⟨haccept, hstored⟩, Settings.get?_write_self hstored, hsame⟩

/-- A number on offer is chosen by its digits, however it was written among the values. -/
theorem choice_accepted_iff_of_number :
    let n : Node := { key := some "threads", type := some .int, required := true,
                      values := some [.str " 08", .int 4] }
    ∃ item, resolve .none ⟨[], []⟩ n .question [0] .empty = .ok item ∧
      item.node.values = some [.int 8, .int 4] ∧
      ∃ w after, item.write ⟨[("user", .str "root")]⟩ (some (.str "8")) = (.ok w, after) ∧
        after.get? "threads" = some w ∧ (Value.int 8).isSame w = true := by
  intro n
  obtain ⟨item, hr, hv, hkey⟩ : ∃ item, resolve .none ⟨[], []⟩ n .question [0] .empty = .ok item ∧
      item.node.values = some [.int 8, .int 4] ∧ item.key = "threads" := ⟨_, rfl, rfl, rfl⟩
  have hfree : (Settings.write ⟨[("user", .str "root")]⟩ item.key (.int 0)).1 = .ok () := by
    rw [hkey]
    rfl
  have hchosen := (choice_accepted_iff hr hv List.mem_cons_self (.int 8) (by decide)
    (.inr (.inr (.inl rfl))) hfree).mpr (fun h => by cases h)
  rw [hkey] at hchosen
  exact ⟨item, hr, hv, hchosen⟩

/-- Words for truth values are on offer as texts, and none of them can be chosen: the answer has become
a truth value by the time it is compared with them. -/
theorem word_refused_for_truth_value :
    let n : Node := { key := some "backup", type := some .bool,
                      values := some [.str "yes", .str "no"] }
    ∃ item, resolve .none ⟨[], []⟩ n .question [0] .empty = .ok item ∧
      item.node.values = some [.str "yes", .str "no"] ∧
      (Settings.empty.write item.key (.str "yes")).1 = .ok () ∧
      item.write .empty (some (.str "yes")) =
        (.error (.invalidValue "backup" (.notAllowed "true" ["yes", "no"])), .empty) :=
  ⟨_, rfl, rfl, rfl, rfl⟩

end Item
end Interview
