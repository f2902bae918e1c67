import Interview.Proofs.Settings.Storing
import Interview.Proofs.Walk.Course

/-! Counting. A document of updates adds up exactly: each of its keys ends at the number that it started
with and the steps of its nodes, whichever nodes of other keys stand between them. The first step that
would leave the range of the integers ends the pass, and the numbers are then what they were before it. -/

namespace Interview

namespace Number

def InRange (n : Int) : Prop := int64Min ≤ n ∧ n ≤ int64Max

instance (n : Int) : Decidable (InRange n) := inferInstanceAs (Decidable (_ ∧ _))

theorem toInt64?_of_inRange {n : Int} (h : InRange n) : ∃ m, toInt64? n = some m ∧ m.toInt = n := by
  refine ⟨Int64.ofInt n, if_pos h, ?_⟩
  obtain ⟨hlow, hhigh⟩ := h
  unfold int64Min at hlow
  unfold int64Max at hhigh
  exact Int64.toInt_ofInt_of_le (by omega) (by omega)

theorem toInt64?_of_not_inRange {n : Int} (h : ¬ InRange n) : toInt64? n = none := if_neg h

end Number

open Number

/-- An update that declares a key and a step, and nothing beside them but a section and the type of the
number. -/
structure Count where
  sectionName : Option String
  key : String
  typed : Bool
  step : Option Int64

namespace Count

def node (c : Count) : Node where
  kind := some "update"
  sectionName := c.sectionName
  key := some c.key
  type := if c.typed then some .int else none
  value := c.step.map .int

def target (c : Count) : String := c.node.sectionedKey c.key

def amount (c : Count) : Int := (c.step.getD 1).toInt

def sum (key : String) : List Count → Int
  | [] => 0
  | c :: rest => (if c.target = key then c.amount else 0) + sum key rest

theorem sum_concat (key : String) (done : List Count) (c : Count) :
    sum key (done ++ [c]) = sum key done + if c.target = key then c.amount else 0 := by
  induction done with
  | nil => simp [sum]
  | cons b done ih => rw [List.cons_append, sum, ih, sum, Int.add_assoc]

theorem sum_of_absent {key : String} {done : List Count} (h : ∀ c ∈ done, c.target ≠ key) :
    sum key done = 0 := by
  induction done with
  | nil => rfl
  | cons c done ih =>
    obtain ⟨hc, h⟩ := List.forall_mem_cons.mp h
    rw [sum, if_neg hc, ih h, Int.add_zero]

def item (c : Count) (place : WalkPath) : Item where
  place := place
  kind := .update
  key := c.target
  node := c.node
  range := none
  pattern := none

theorem resolve_node (sp : SearchPath) (fs : FileSystem) (c : Count) (place : WalkPath)
    (store : Settings) : Item.resolve sp fs c.node .update place store = .ok (c.item place) := rfl

theorem accept_item (c : Count) (place : WalkPath) (total : Int64) :
    (c.item place).accept (some (.int total)) = .ok (.int total) := by
  obtain ⟨sectionName, key, typed, step⟩ := c
  cases typed <;> rfl

theorem stepOf_node (c : Count) (place : WalkPath) :
    Walk.stepOf c.node place = .ok (c.step.getD 1) := by
  obtain ⟨sectionName, key, typed, step⟩ := c
  cases step <;> rfl

end Count

namespace Settings

def numberAt (s : Settings) (key : String) : Int :=
  match s.get? key with
  | some (.int n) => n.toInt
  | _ => 0

def numberAfter (s : Settings) (counts : List Count) (key : String) : Int :=
  s.numberAt key + Count.sum key counts

/-- The keys of the updates can all be counted at: each stands for a number, and can be written. -/
structure Countable (s : Settings) (counts : List Count) : Prop where
  named : ∀ c ∈ counts, "" ∉ Key.segments c.target
  apart : ∀ c ∈ counts, ∀ d ∈ counts,
    Key.segments c.target <+: Key.segments d.target → c.target = d.target
  free : ∀ c ∈ counts, ∀ above, Key.segments above <+: Key.segments c.target →
    above ≠ c.target → s.leaf? above = none
  number : ∀ c ∈ counts, s.get? c.target = none ∨ ∃ n, s.get? c.target = some (.int n)

def Fits (s : Settings) (counts : List Count) : Prop :=
  ∀ before c, before ++ [c] <+: counts → InRange (s.numberAfter (before ++ [c]) c.target)

/-- What some of the updates have done, and all that they have done. -/
structure Counted (s : Settings) (counts done : List Count) (after : Settings) : Prop where
  held : ∀ c ∈ done, ∃ n, after.get? c.target = some (.int n) ∧
    n.toInt = s.numberAfter done c.target
  waiting : ∀ c ∈ counts, (∀ b ∈ done, b.target ≠ c.target) → after.get? c.target = s.get? c.target
  others : ∀ path, (∀ c ∈ done, path ≠ Key.segments c.target) →
    after.root.leaf? path = s.root.leaf? path

variable {s t after : Settings} {counts done : List Count} {c : Count}

theorem numberAfter_concat (s : Settings) (done : List Count) (c : Count) (key : String) :
    s.numberAfter (done ++ [c]) key =
      s.numberAfter done key + if c.target = key then c.amount else 0 := by
  rw [numberAfter, Count.sum_concat, numberAfter, Int.add_assoc]

theorem fits_nil (s : Settings) : s.Fits [] := by
  intro before c hp
  simp at hp

theorem fits_concat :
    s.Fits (done ++ [c]) ↔ s.Fits done ∧ InRange (s.numberAfter (done ++ [c]) c.target) := by
  constructor
  · intro h
    exact ⟨fun before d hp => h before d (hp.trans (List.prefix_append done [c])),
      h done c (List.prefix_refl _)⟩
  · rintro ⟨h, hc⟩ before d hp
    rcases List.prefix_concat_iff.mp hp with he | hp
    · obtain ⟨rfl, hd⟩ := List.append_inj' he rfl
      obtain rfl := List.singleton_inj.mp hd
      exact hc
    · exact h before d hp

theorem counted_nil (s : Settings) (counts : List Count) : s.Counted counts [] s :=
  ⟨by simp, fun _ _ _ => rfl, fun _ _ => rfl⟩

theorem Counted.current (h : s.Counted counts done t) (hs : s.Countable counts) (hc : c ∈ counts) :
    (t.get? c.target = none ∧ s.numberAfter done c.target = 0) ∨
      ∃ n, t.get? c.target = some (.int n) ∧ n.toInt = s.numberAfter done c.target := by
  by_cases hb : ∃ b ∈ done, b.target = c.target
  · obtain ⟨b, hb, he⟩ := hb
    exact .inr (he ▸ h.held b hb)
  · have hnone : ∀ b ∈ done, b.target ≠ c.target := fun b hm he => hb ⟨b, hm, he⟩
    rw [h.waiting c hc hnone, numberAfter, Count.sum_of_absent hnone, Int.add_zero, numberAt]
    rcases hs.number c hc with hn | ⟨n, hn⟩
    · exact .inl ⟨hn, by rw [hn]⟩
    · exact .inr ⟨n, hn, by rw [hn]⟩

theorem Countable.beside (hs : s.Countable counts) {d : Count} (hd : d ∈ counts) (hc : c ∈ counts)
    (hne : d.target ≠ c.target) : ¬ Key.segments d.target <+: Key.segments c.target ∧
      ¬ Key.segments c.target <+: Key.segments d.target :=
  ⟨fun hp => hne (hs.apart d hd c hc hp), fun hp => hne (hs.apart c hc d hd hp).symm⟩

theorem Counted.write_eq_ok (h : s.Counted counts done t) (hs : s.Countable counts)
    (hd : done ⊆ counts) (hc : c ∈ counts) (v : Value) : (t.write c.target v).1 = .ok () := by
  refine write_eq_ok_iff.mpr ⟨hs.named c hc, fun above hp hne => ?_⟩
  have hbefore : t.leaf? above = s.leaf? above := by
    refine h.others _ fun b hb he => hne ?_
    obtain rfl := Key.segments_inj he
    exact hs.apart b (hd hb) c hc hp
  rw [hbefore, hs.free c hc above hp hne]

theorem Counted.write (h : s.Counted counts done t) (hs : s.Countable counts) (hd : done ⊆ counts)
    (hc : c ∈ counts) {total : Int64} (htotal : total.toInt = s.numberAfter (done ++ [c]) c.target)
    (hw : t.write c.target (.int total) = (.ok (), after)) :
    s.Counted counts (done ++ [c]) after := by
  have hother {d : Count} (hd : d ∈ counts) (hne : d.target ≠ c.target) :
      after.get? d.target = t.get? d.target := by
    obtain ⟨hdc, hcd⟩ := hs.beside hd hc hne
    exact get?_write_of_incomparable hw hdc hcd
  have hleaf : ¬ t.HasTable c.target := by
    rintro ⟨entries, he⟩
    rcases h.current hs hc with ⟨hn, -⟩ | ⟨n, hn, -⟩
    · rw [hn] at he
      cases he
    · rw [hn] at he
      cases he
  refine ⟨fun d hm => ?_, fun d hm hne => ?_, fun path hne => ?_⟩
  · by_cases he : d.target = c.target
    · rw [he]
      exact ⟨total, get?_write_self hw, htotal⟩
    · have hm : d ∈ done := by
        rcases List.mem_append.mp hm with hm | hm
        · exact hm
        · exact absurd (congrArg Count.target (List.mem_singleton.mp hm)) he
      obtain ⟨n, hn, hvalue⟩ := h.held d hm
      refine ⟨n, (hother (hd hm) he).trans hn, ?_⟩
      rw [numberAfter_concat, if_neg (Ne.symm he), hvalue, Int.add_zero]
  · have hc' : d.target ≠ c.target := (hne c (by simp)).symm
    rw [hother hm hc', h.waiting d hm fun b hb => hne b (List.mem_append_left [c] hb)]
  · rw [leaf?_root_write hw hleaf rfl (hne c (by simp))]
    exact h.others path fun b hb => hne b (List.mem_append_left [c] hb)

end Settings

namespace Walk

open Settings

variable {sp : SearchPath} {fs : FileSystem} {cache : IncludeCache} {place : WalkPath} {p : Progress}
  {s t : Settings} {counts done : List Count} {c : Count}

theorem exec_scanAt_node (c : Count) (p : Progress) :
    (scanAt sp fs cache place c.node).exec p = (update sp fs c.node place).exec p := by
  have hkind : c.node.kindAt place = .ok .update := rfl
  rw [scanAt_enabled rfl, exec_bind, hkind, exec_lift]

theorem currentCount_item (place : WalkPath) (hs : s.Countable counts) (hc : c ∈ counts)
    (h : s.Counted counts done t) :
    ∃ n, currentCount (c.item place) t = .ok n ∧ n.toInt = s.numberAfter done c.target := by
  have hkey : (c.item place).key = c.target := rfl
  unfold currentCount
  rw [hkey]
  rcases h.current hs hc with ⟨hn, hzero⟩ | ⟨n, hn, hvalue⟩
  · rw [hn]
    exact ⟨0, rfl, hzero.symm⟩
  · rw [hn]
    exact ⟨n, rfl, hvalue⟩

theorem raised_node (hs : s.Countable counts) (hc : c ∈ counts) (h : s.Counted counts done t) :
    raised sp fs c.node place t =
      match toInt64? (s.numberAfter (done ++ [c]) c.target) with
      | some total => .ok (c.item place, total)
      | none => .error (.invalidValue c.target .counterOverflow) := by
  obtain ⟨n, hn, hvalue⟩ := currentCount_item place hs hc h
  have hsum : n.toInt + (c.step.getD 1).toInt = s.numberAfter (done ++ [c]) c.target := by
    rw [numberAfter_concat, if_pos rfl, hvalue]
    rfl
  simp only [raised, Count.resolve_node, hn, Count.stepOf_node, bind, Except.bind, hsum]
  rfl

variable (sp fs cache place p)

theorem scanAt_counts (hs : s.Countable counts) (hd : done ⊆ counts) (hc : c ∈ counts)
    (h : s.Counted counts done t) (hr : InRange (s.numberAfter (done ++ [c]) c.target)) :
    ∃ after, (scanAt sp fs cache place c.node).exec { p with store := t } =
        (.ok .exhausted, { p with store := after }) ∧ s.Counted counts (done ++ [c]) after := by
  obtain ⟨total, htotal, hvalue⟩ := toInt64?_of_inRange hr
  have hfree := h.write_eq_ok hs hd hc (.int total)
  have hw : t.write c.target (.int total) = (.ok (), (t.write c.target (.int total)).2) :=
    Prod.ext hfree rfl
  have hwrite := Item.write_eq_ok.mpr ⟨c.accept_item place total, hw⟩
  refine ⟨_, ?_, h.write hs hd hc hvalue hw⟩
  rw [exec_scanAt_node, exec_update, raised_node hs hc h, htotal]
  simp only [hwrite, Except.map]

theorem scanAt_overflows (hs : s.Countable counts) (hc : c ∈ counts) (h : s.Counted counts done t)
    (hr : ¬ InRange (s.numberAfter (done ++ [c]) c.target)) :
    (scanAt sp fs cache place c.node).exec { p with store := t } =
      (.error (.invalidValue c.target .counterOverflow), { p with store := t }) := by
  rw [exec_scanAt_node, exec_update, raised_node hs hc h, toInt64?_of_not_inRange hr]

variable {sp fs cache p}

/-- What a pass over updates comes to: all of them have counted, or those before the first one whose
step leaves the range. -/
inductive Tally (s : Settings) (counts : List Count) (p : Progress) :
    Except Error Scan × Progress → Prop
  | all {after : Settings} : s.Fits counts → s.Counted counts counts after →
    Tally s counts p (.ok .exhausted, { p with store := after })
  | overflow {before : List Count} {c : Count} {after : Settings} :
    before ++ [c] <+: counts → s.Fits before →
    ¬ InRange (s.numberAfter (before ++ [c]) c.target) → s.Counted counts before after →
    Tally s counts p (.error (.invalidValue c.target .counterOverflow), { p with store := after })

/-- The induction is on the updates that are left; those before them have counted. -/
theorem scanFrom_tally {rest : List Count} (hs : s.Countable counts) (hall : counts = done ++ rest)
    (hfits : s.Fits done) (h : s.Counted counts done t) (index : Nat) :
    Tally s counts p
      ((scanFrom sp fs cache [] index (rest.map Count.node)).exec { p with store := t }) := by
  induction rest generalizing done t index with
  | nil =>
    rw [List.append_nil] at hall
    subst hall
    rw [List.map_nil, exec_scanFrom_nil]
    exact .all hfits h
  | cons c rest ih =>
    have hprefix : done ++ [c] <+: counts := ⟨rest, by simp [hall]⟩
    have hd : done ⊆ counts := by simp [hall]
    have hc : c ∈ counts := by simp [hall]
    rw [List.map_cons, exec_scanFrom_cons]
    by_cases hr : InRange (s.numberAfter (done ++ [c]) c.target)
    · obtain ⟨after, hexec, hafter⟩ := scanAt_counts sp fs cache ([] ++ [index]) p hs hd hc h hr
      rw [hexec]
      exact ih (by simp [hall]) (fits_concat.mpr ⟨hfits, hr⟩) hafter (index + 1)
    · rw [scanAt_overflows sp fs cache ([] ++ [index]) p hs hc h hr]
      exact .overflow hprefix hfits hr h

/-- A pass over updates of keys that can be counted at adds all the steps up exactly, and is exhausted, if
no partial sum leaves the range. Otherwise it fails at the first update whose partial sum does, with its
key, and the steps before that one are added up. No other leaf is touched. -/
theorem scan_counts (h : p.store.Countable counts) :
    (p.store.Fits counts → ∃ after,
      (scan sp fs (counts.map Count.node)).exec p = (.ok .exhausted, { p with store := after }) ∧
        p.store.Counted counts counts after) ∧
    (¬ p.store.Fits counts → ∃ before c after, before ++ [c] <+: counts ∧ p.store.Fits before ∧
      ¬ InRange (p.store.numberAfter (before ++ [c]) c.target) ∧
      (scan sp fs (counts.map Count.node)).exec p =
        (.error (.invalidValue c.target .counterOverflow), { p with store := after }) ∧
      p.store.Counted counts before after) := by
  have htally : Tally p.store counts p ((scan sp fs (counts.map Count.node)).exec p) := by
    rw [exec_scan]
    exact scanFrom_tally h rfl (fits_nil _) (counted_nil _ _) 0
  generalize (scan sp fs (counts.map Count.node)).exec p = ending at htally
  cases htally with
  | @all after hfits hcounted =>
    exact ⟨fun _ => ⟨after, rfl, hcounted⟩, fun hnot => absurd hfits hnot⟩
  | @overflow before c after hprefix hbefore hr hcounted =>
    refine ⟨fun hfits => absurd (hfits before c hprefix) hr, fun _ => ?_⟩
    exact ⟨before, c, after, hprefix, hbefore, hr, rfl, hcounted⟩

theorem scan_counts_of_runs :
    let p : Progress := { store := ⟨[("stats", .table [("runs", .int 4)])]⟩, includes := .empty, log := [] }
    let counts : List Count := [⟨none, "stats.runs", false, none⟩, ⟨some "stats", "fails", true, some 2⟩,
      ⟨none, "stats.runs", false, some 2⟩]
    ∃ after, (scan .none ⟨[], []⟩ (counts.map Count.node)).exec p =
        (.ok .exhausted, { p with store := after }) ∧
      after.get? "stats.runs" = some (.int 7) ∧ after.get? "stats.fails" = some (.int 2) := by
  intro p counts
  have hwrite : ∀ c ∈ counts, (p.store.write c.target (.int 0)).1 = .ok () := by
    simp only [counts, List.forall_mem_cons]
    exact ⟨rfl, rfl, rfl, by simp⟩
  have hs : p.store.Countable counts := by
    refine ⟨fun c hc => (write_eq_ok_iff.mp (hwrite c hc)).1, by decide,
      fun c hc => (write_eq_ok_iff.mp (hwrite c hc)).2, ?_⟩
    simp only [counts, List.forall_mem_cons]
    exact ⟨.inr ⟨4, rfl⟩, .inl rfl, .inr ⟨4, rfl⟩, by simp⟩
  have hfits : p.store.Fits counts :=
    fits_concat.mpr ⟨fits_concat.mpr ⟨fits_concat.mpr ⟨fits_nil _, by decide⟩, by decide⟩, by decide⟩
  obtain ⟨after, hexec, hcounted⟩ : ∃ after,
      (scan .none ⟨[], []⟩ (counts.map Count.node)).exec p =
          (.ok .exhausted, { p with store := after }) ∧
        p.store.Counted counts counts after := (scan_counts hs).1 hfits
  have hnumber (c : Count) (n : Int64) (hc : c ∈ counts)
      (hn : n.toInt = p.store.numberAfter counts c.target) : after.get? c.target = some (.int n) := by
    obtain ⟨m, hm, hvalue⟩ := hcounted.held c hc
    rw [hm, Int64.toInt_inj.mp (hvalue.trans hn.symm)]
  refine ⟨after, hexec, ?_, ?_⟩
  · exact hnumber ⟨none, "stats.runs", false, none⟩ 7 (by simp [counts]) (by decide)
  · exact hnumber ⟨some "stats", "fails", true, some 2⟩ 2 (by simp [counts]) (by decide)

end Walk
end Interview
