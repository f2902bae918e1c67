import Interview.Proofs.Item.Acceptance
import Interview.Proofs.Item.Resolution
import Mathlib.Data.String.Basic

/-! Sorted choices. Insertion lines up values of which no three contradict each other. Texts, integers and
truth values may do so when they stand together, since two integers compare by size but an integer and
another value by their texts; and a not-a-number counts as equal to every float. -/

namespace Interview

namespace Number.Binary64

theorem order_swap (x y : Binary64) : x.order y = (y.order x).swap := by
  unfold order
  cases x.key? <;> cases y.key?
  · rfl
  · rfl
  · rfl
  · exact Std.OrientedOrd.eq_swap

theorem key?_eq_none {x : Binary64} : x.key? = none ↔ x.isNaN = true := by
  unfold key?
  split <;> simp_all

theorem order_of_nan {x : Binary64} (h : x.isNaN = true) (y : Binary64) : x.order y = .eq := by
  simp [order, key?_eq_none.mpr h]

end Number.Binary64

open Number

namespace Value

def isNumber : Value → Bool
  | int _ | float _ => true
  | _ => false

theorem order_of_text {v w : Value} (h : ¬ (v.isNumber = true ∧ w.isNumber = true)) :
    v.order w = compare v.text w.text := by
  cases v <;> cases w <;> first | rfl | exact absurd ⟨rfl, rfl⟩ h

theorem order_swap (v w : Value) : v.order w = (w.order v).swap := by
  by_cases h : v.isNumber = true ∧ w.isNumber = true
  · obtain ⟨hv, hw⟩ := h
    cases v <;> cases hv
    all_goals cases w <;> cases hw
    · exact Std.OrientedOrd.eq_swap
    · exact Binary64.order_swap _ _
    · exact Binary64.order_swap _ _
    · exact Binary64.order_swap _ _
  · rw [order_of_text h, order_of_text fun hswap => h hswap.symm]
    exact Std.OrientedOrd.eq_swap

inductive Plain : Value → Prop
  | str (s : String) : Plain (.str s)
  | int (n : Int64) : Plain (.int n)
  | bool (b : Bool) : Plain (.bool b)

/-- Values of which no three contradict each other. -/
def Consistent (values : List Value) : Prop :=
  ∀ u ∈ values, ∀ v ∈ values, ∀ w ∈ values, u.order v ≠ .gt → v.order w ≠ .gt → u.order w ≠ .gt

/-- Three values that contradict each other: two integers, and a value of another kind whose text lies
between theirs the other way round; or two floats of different size and a not-a-number. -/
inductive Clash (values : List Value) : Prop
  | text {m n : Int64} {v : Value} : .int m ∈ values → .int n ∈ values → v ∈ values →
    v.isNumber = false → m < n → (Value.int n).text ≤ v.text → v.text ≤ (Value.int m).text →
    Clash values
  | nan {x y z : Binary64} : .float x ∈ values → .float y ∈ values → .float z ∈ values →
    x.isNaN = true → y.order z = .lt → Clash values

end Value

namespace SortOrder

def Puts (order : SortOrder) (v w : Value) : Prop :=
  match order with
  | .asc => v.order w ≠ .gt
  | .desc => v.order w ≠ .lt

instance (order : SortOrder) : DecidableRel order.Puts := fun v w =>
  match order with
  | .asc => inferInstanceAs (Decidable (v.order w ≠ .gt))
  | .desc => inferInstanceAs (Decidable (v.order w ≠ .lt))

def precedes (order : SortOrder) (v w : Value) : Bool :=
  match order with
  | .asc => v.order w == .lt
  | .desc => w.order v == .lt

theorem precedes_eq_false {order : SortOrder} {v w : Value} :
    order.precedes w v = false ↔ order.Puts v w := by
  cases order with
  | asc =>
    simp only [precedes, Puts, v.order_swap w]
    cases w.order v <;> decide
  | desc =>
    simp only [precedes, Puts]
    cases v.order w <;> decide

theorem puts_total (order : SortOrder) (v w : Value) : order.Puts v w ∨ order.Puts w v := by
  cases order <;> simp only [Puts, v.order_swap w] <;> cases w.order v <;> decide

theorem puts_desc {v w : Value} : SortOrder.desc.Puts v w ↔ SortOrder.asc.Puts w v := by
  simp only [Puts, v.order_swap w]
  cases w.order v <;> decide

theorem puts_trans {values : List Value} (h : Value.Consistent values) (order : SortOrder)
    {u v w : Value} (hu : u ∈ values) (hv : v ∈ values) (hw : w ∈ values) (huv : order.Puts u v)
    (hvw : order.Puts v w) : order.Puts u w := by
  cases order with
  | asc => exact h u hu v hv w hw huv hvw
  | desc =>
    rw [puts_desc] at huv hvw ⊢
    exact h w hw v hv u hu hvw huv

end SortOrder

namespace Item

section Insertion

variable {order : SortOrder} {values : List Value}

theorem sorted_eq (order : SortOrder) (values : List Value) :
    sorted (some order) values = insertionSort order.precedes values := by
  cases order <;> rfl

theorem insertBack_perm (precedes : Value → Value → Bool) (v : Value) (line : List Value) :
    (insertBack precedes v line).Perm (v :: line) := by
  induction line with
  | nil => exact .refl _
  | cons w rest ih =>
    unfold insertBack
    split
    · exact (ih.cons w).trans (.swap v w rest)
    · exact .refl _

theorem foldl_insertBack_perm (precedes : Value → Value → Bool) (values line : List Value) :
    (values.foldl (fun line v => insertBack precedes v line) line).Perm (line ++ values) := by
  induction values generalizing line with
  | nil => simp
  | cons v values ih =>
    have hv := (insertBack_perm precedes v line).append_right values
    exact (ih _).trans (hv.trans List.perm_middle.symm)

theorem sorted_perm (order : Option SortOrder) (values : List Value) :
    (sorted order values).Perm values := by
  cases order with
  | none => exact .refl values
  | some order =>
    rw [sorted_eq]
    exact (List.reverse_perm _).trans (foldl_insertBack_perm _ values [])

/-- A value that is put in its place leaves the line in order. The line stands last to first. -/
theorem pairwise_insertBack (h : Value.Consistent values) {v : Value} {line : List Value}
    (hv : v ∈ values) (hs : ∀ w ∈ line, w ∈ values)
    (hline : line.Pairwise fun a b => order.Puts b a) :
    (insertBack order.precedes v line).Pairwise fun a b => order.Puts b a := by
  induction line with
  | nil => exact List.pairwise_singleton _ v
  | cons w rest ih =>
    obtain ⟨hw, hrest⟩ := List.pairwise_cons.mp hline
    obtain ⟨hws, hs⟩ := List.forall_mem_cons.mp hs
    unfold insertBack
    split
    · next hp =>
      refine List.pairwise_cons.mpr ⟨fun x hx => ?_, ih hs hrest⟩
      rcases List.mem_cons.mp ((insertBack_perm _ v rest).mem_iff.mp hx) with rfl | hx
      · refine (order.puts_total x w).resolve_right fun hwx => ?_
        rw [SortOrder.precedes_eq_false.mpr hwx] at hp
        cases hp
      · exact hw x hx
    · next hp =>
      have hwv : order.Puts w v := SortOrder.precedes_eq_false.mp (Bool.eq_false_iff.mpr hp)
      refine List.pairwise_cons.mpr ⟨fun x hx => ?_, hline⟩
      rcases List.mem_cons.mp hx with rfl | hx
      · exact hwv
      · exact order.puts_trans h (hs x hx) hws hv (hw x hx) hwv

theorem pairwise_foldl_insertBack (h : Value.Consistent values) {drawn line : List Value}
    (hd : ∀ v ∈ drawn, v ∈ values) (hs : ∀ v ∈ line, v ∈ values)
    (hline : line.Pairwise fun a b => order.Puts b a) :
    (drawn.foldl (fun line v => insertBack order.precedes v line) line).Pairwise
      fun a b => order.Puts b a := by
  induction drawn generalizing line with
  | nil => exact hline
  | cons v drawn ih =>
    obtain ⟨hv, hd⟩ := List.forall_mem_cons.mp hd
    refine ih hd (fun w hw => ?_) (pairwise_insertBack h hv hs hline)
    rcases List.mem_cons.mp ((insertBack_perm _ v line).mem_iff.mp hw) with rfl | hw
    · exact hv
    · exact hs w hw

theorem sorted_triple (order : SortOrder) {u v w : Value} (huv : order.Puts u v) (hvw : order.Puts v w) :
    sorted (some order) [u, v, w] = [u, v, w] := by
  rw [sorted_eq]
  simp [insertionSort, insertBack, SortOrder.precedes_eq_false.mpr huv,
    SortOrder.precedes_eq_false.mpr hvw]

/-- Values are lined up, whichever of them are drawn and in whatever order, exactly if no three of them
contradict each other. -/
theorem sorted_pairwise_iff :
    (∀ drawn : List Value, drawn ⊆ values → (sorted (some order) drawn).Pairwise order.Puts) ↔
      Value.Consistent values := by
  constructor
  · intro h u hu v hv w hw huv hvw
    cases order with
    | asc =>
      have hs := h [u, v, w] (by simp [hu, hv, hw])
      rw [sorted_triple .asc huv hvw] at hs
      exact (List.pairwise_cons.mp hs).1 w (by simp)
    | desc =>
      have hs := h [w, v, u] (by simp [hu, hv, hw])
      rw [sorted_triple .desc (SortOrder.puts_desc.mpr hvw) (SortOrder.puts_desc.mpr huv)] at hs
      exact SortOrder.puts_desc.mp ((List.pairwise_cons.mp hs).1 u (by simp))
  · intro h drawn hd
    rw [sorted_eq, insertionSort, List.pairwise_reverse]
    exact pairwise_foldl_insertBack h hd (by simp) .nil

end Insertion

end Item

namespace Value

variable {values : List Value}

theorem order_ne_gt_of_text {v w : Value} (h : ¬ (v.isNumber = true ∧ w.isNumber = true)) :
    v.order w ≠ .gt ↔ v.text ≤ w.text := by
  rw [order_of_text h]
  exact compare_le_iff_le

theorem order_ne_gt_of_int {m n : Int64} : (Value.int m).order (.int n) ≠ .gt ↔ m ≤ n :=
  Ordering.isLE_iff_ne_gt.symm.trans Std.isLE_compare

theorem Plain.int_of_isNumber {v : Value} (h : v.Plain) (hn : v.isNumber = true) :
    ∃ n, v = .int n := by
  cases h with
  | int n => exact ⟨n, rfl⟩
  | str => cases hn
  | bool => cases hn

/-- The three values of a contradiction are two integers and another value; the three cases are the
three places where that one can stand. -/
theorem consistent_of_plain (hp : ∀ v ∈ values, v.Plain) (hc : ¬ Clash values) :
    Consistent values := by
  intro u hu v hv w hw huv hvw
  by_cases hun : u.isNumber = true <;> by_cases hvn : v.isNumber = true <;>
    by_cases hwn : w.isNumber = true
  · obtain ⟨a, rfl⟩ := (hp u hu).int_of_isNumber hun
    obtain ⟨b, rfl⟩ := (hp v hv).int_of_isNumber hvn
    obtain ⟨c, rfl⟩ := (hp w hw).int_of_isNumber hwn
    rw [order_ne_gt_of_int] at *
    exact Int64.le_trans huv hvw
  · obtain ⟨a, rfl⟩ := (hp u hu).int_of_isNumber hun
    obtain ⟨b, rfl⟩ := (hp v hv).int_of_isNumber hvn
    rw [order_ne_gt_of_int] at huv
    rw [order_ne_gt_of_text (by simp [hwn])] at hvw ⊢
    by_contra hlt
    have hab : a ≠ b := by
      rintro rfl
      exact hlt hvw
    exact hc (.text hu hv hw (Bool.eq_false_iff.mpr hwn) (Int64.lt_of_le_of_ne huv hab) hvw
      (le_of_not_ge hlt))
  · obtain ⟨a, rfl⟩ := (hp u hu).int_of_isNumber hun
    obtain ⟨c, rfl⟩ := (hp w hw).int_of_isNumber hwn
    rw [order_ne_gt_of_text (by simp [hvn])] at huv hvw
    rw [order_ne_gt_of_int]
    by_contra hlt
    exact hc (.text hw hu hv (Bool.eq_false_iff.mpr hvn) (Int64.not_le.mp hlt) huv hvw)
  · rw [order_ne_gt_of_text (by simp [hvn])] at huv hvw
    rw [order_ne_gt_of_text (by simp [hwn])]
    exact le_trans huv hvw
  · obtain ⟨b, rfl⟩ := (hp v hv).int_of_isNumber hvn
    obtain ⟨c, rfl⟩ := (hp w hw).int_of_isNumber hwn
    rw [order_ne_gt_of_int] at hvw
    rw [order_ne_gt_of_text (by simp [hun])] at huv ⊢
    by_contra hlt
    have hbc : b ≠ c := by
      rintro rfl
      exact hlt huv
    exact hc (.text hv hw hu (Bool.eq_false_iff.mpr hun) (Int64.lt_of_le_of_ne hvw hbc)
      (le_of_not_ge hlt) huv)
  all_goals
    rw [order_ne_gt_of_text (by simp [hun, hvn])] at huv
    rw [order_ne_gt_of_text (by simp [hvn, hwn])] at hvw
    rw [order_ne_gt_of_text (by simp [hun])]
    exact le_trans huv hvw

theorem consistent_of_floats (hf : ∀ v ∈ values, ∃ x, v = .float x) (hc : ¬ Clash values) :
    Consistent values := by
  intro u hu v hv w hw huv hvw hgt
  obtain ⟨x, rfl⟩ := hf u hu
  obtain ⟨y, rfl⟩ := hf v hv
  obtain ⟨z, rfl⟩ := hf w hw
  have hlt : z.order x = .lt := by
    rw [z.order_swap x]
    exact congrArg Ordering.swap hgt
  cases hy : y.isNaN with
  | true => exact hc (.nan hv hw hu hy hlt)
  | false =>
    unfold order Binary64.order at huv hvw hgt
    cases hkx : x.key? with
    | none => simp [hkx] at hgt
    | some a =>
      cases hkz : z.key? with
      | none => simp [hkz] at hgt
      | some c =>
        cases hky : y.key? with
        | none => simp [Binary64.key?_eq_none.mp hky] at hy
        | some b =>
          simp only [hkx, hky, hkz] at huv hvw hgt
          have hab : a ≤ b := Std.isLE_compare.mp (Ordering.isLE_iff_ne_gt.mpr huv)
          have hbc : b ≤ c := Std.isLE_compare.mp (Ordering.isLE_iff_ne_gt.mpr hvw)
          exact Ordering.isLE_iff_ne_gt.mp (Std.isLE_compare.mpr (hab.trans hbc)) hgt

theorem Clash.not_consistent (h : Clash values) : ¬ Consistent values := by
  intro hcons
  cases h with
  | @text m n v hm hn hv hkind hlt hlow hhigh =>
    have hnv : (Value.int n).order v ≠ .gt := (order_ne_gt_of_text (by simp [hkind])).mpr hlow
    have hvm : v.order (.int m) ≠ .gt := (order_ne_gt_of_text (by simp [hkind])).mpr hhigh
    have hnm := order_ne_gt_of_int.mp (hcons _ hn _ hv _ hm hnv hvm)
    exact Int64.not_le.mpr hlt hnm
  | @nan x y z hx hy hz hnan hlt =>
    have hgt : z.order y = .gt := by
      rw [z.order_swap y, hlt]
      rfl
    refine hcons _ hz _ hx _ hy ?_ ?_ hgt
    · show z.order x ≠ .gt
      rw [z.order_swap x, Binary64.order_of_nan hnan]
      decide
    · show x.order y ≠ .gt
      rw [Binary64.order_of_nan hnan]
      decide

theorem consistent_iff (h : (∀ v ∈ values, v.Plain) ∨ ∀ v ∈ values, ∃ x, v = .float x) :
    Consistent values ↔ ¬ Clash values :=
  ⟨fun hcons hclash => hclash.not_consistent hcons,
    h.elim consistent_of_plain consistent_of_floats⟩

end Value

namespace Item

variable {sp : SearchPath} {fs : FileSystem} {n : Node} {place : WalkPath} {store : Settings}
  {item : Item}

theorem mem_of_filterBy {source : Option String} {values chosen : List Value}
    (h : filterBy source values = .ok chosen) {v : Value} (hv : v ∈ chosen) : v ∈ values := by
  cases source with
  | none => exact Except.ok.inj h ▸ hv
  | some source =>
    obtain ⟨p, -, rfl⟩ := map_eq_ok.mp h
    exact List.mem_of_mem_filter hv

theorem typed_ofScalarType {type : ValueType} {values kept : List Value}
    (h : typed (some type) values = .ok kept) (ht : type = .int ∨ type = .float ∨ type = .str)
    {v : Value} (hv : v ∈ kept) : v.OfScalarType type := by
  rcases ht with rfl | rfl | rfl
  all_goals
    obtain ⟨_, -, hw⟩ := exists_of_mem_mapM h hv
    exact Value.coerceScalar_ofScalarType hw (by decide) (by decide)

theorem plain_or_float_of_typed {type : Option ValueType} {values kept : List Value}
    (h : typed type values = .ok kept) (hp : ∀ v ∈ values, v.Plain) :
    (∀ v ∈ kept, v.Plain) ∨ ∀ v ∈ kept, ∃ x, v = .float x := by
  have hkeep (h : (.ok values : Except Reason (List Value)) = .ok kept) : ∀ v ∈ kept, v.Plain :=
    Except.ok.inj h ▸ hp
  cases type with
  | none => exact .inl (hkeep h)
  | some type =>
    cases type with
    | int =>
      refine .inl fun v hv => ?_
      cases typed_ofScalarType h (by decide) hv with
      | int n => exact .int n
    | str =>
      refine .inl fun v hv => ?_
      cases typed_ofScalarType h (by decide) hv with
      | str s => exact .str s
    | float =>
      refine .inr fun v hv => ?_
      cases typed_ofScalarType h (by decide) hv with
      | float x => exact ⟨x, rfl⟩
    | bool | csv | ssv => exact .inl (hkeep h)

/-- A question that sorts its choices offers all that were chosen and typed, and only those. They are
in order, every two of them, if no three contradict each other; and if three do, there are some of them
that are not put in order. -/
theorem choices_sorted_iff {order : SortOrder} {values : List Value}
    (hr : resolve sp fs n .question place store = .ok item) (hsort : n.valuesSort = some order)
    (ho : offered sp fs n (.badItem .question place) = .ok (some values))
    (hp : ∀ v ∈ values, v.Plain) :
    ∃ chosen kept listed, filterBy n.valuesRegexp values = .ok chosen ∧
      typed n.type chosen = .ok kept ∧ item.node.values = some listed ∧ listed.Perm kept ∧
      (¬ Value.Clash kept → listed.Pairwise order.Puts) ∧
      (Value.Clash kept ↔
        ∃ drawn : List Value, drawn ⊆ kept ∧ ¬ (sorted (some order) drawn).Pairwise order.Puts) := by
  have hlists := (resolved hr).values
  generalize item.node.values = listed at hlists
  cases hlists with
  | nothing hnone => cases ho.symm.trans hnone
  | @listed _ chosen kept ho' hchosen hkept =>
    obtain rfl : _ = values := Option.some.inj (Except.ok.inj (ho'.symm.trans ho))
    have hplain := plain_or_float_of_typed hkept fun v hv => hp v (mem_of_filterBy hchosen hv)
    have hiff : (∀ drawn : List Value, drawn ⊆ kept →
        (sorted (some order) drawn).Pairwise order.Puts) ↔ ¬ Value.Clash kept :=
      sorted_pairwise_iff.trans (Value.consistent_iff hplain)
    rw [hsort]
    refine ⟨chosen, kept, _, hchosen, hkept, rfl, sorted_perm (some order) kept, fun hc => ?_, ?_⟩
    · exact hiff.mpr hc kept (List.Subset.refl kept)
    · rw [← not_iff_not, ← hiff]
      simp

/-- Of the choices of one question only one is an integer, so that they stand by their texts. -/
theorem choices_sorted_iff_of_sizes :
    let n : Node := { key := some "size", valuesSort := some .desc,
                      values := some [.str "large", .int 3, .bool true, .str "small"] }
    let listed : List Value := [.bool true, .str "small", .str "large", .int 3]
    ∃ item, resolve .none ⟨[], []⟩ n .question [0] .empty = .ok item ∧
      item.node.values = some listed ∧ listed.Pairwise SortOrder.desc.Puts := by
  intro n listed
  obtain ⟨item, hr, hlisted⟩ : ∃ item, resolve .none ⟨[], []⟩ n .question [0] .empty = .ok item ∧
      item.node.values = some listed := ⟨_, rfl, rfl⟩
  have hplain : ∀ v ∈ [Value.str "large", .int 3, .bool true, .str "small"], v.Plain := by
    simp [Value.Plain.str, Value.Plain.int, Value.Plain.bool]
  have hclash : ¬ Value.Clash [Value.str "large", .int 3, .bool true, .str "small"] := by
    rintro (⟨hm, hn, -, -, hlt, -, -⟩ | ⟨hx, -, -, -, -⟩)
    · simp only [List.mem_cons, reduceCtorEq, Value.int.injEq, List.not_mem_nil, or_false,
        false_or] at hm hn
      exact absurd hlt (by rw [hm, hn]; decide)
    · simp at hx
  obtain ⟨_, _, _, hchosen, hkept, hlisted', -, hsorted, -⟩ :=
    choices_sorted_iff hr rfl rfl hplain
  obtain rfl := Except.ok.inj hchosen
  obtain rfl := Except.ok.inj hkept
  obtain rfl := Option.some.inj (hlisted.symm.trans hlisted')
  exact ⟨item, hr, hlisted, hsorted hclash⟩

/-- Two integers beside the text of the larger one: they stand by size, and the text after them, though
it should stand before the smaller one. -/
theorem choices_out_of_order :
    let n : Node := { key := some "port", valuesSort := some .asc,
                      values := some [.int 9, .int 10, .str "10"] }
    ∃ item, resolve .none ⟨[], []⟩ n .question [0] .empty = .ok item ∧
      item.node.values = some [.int 9, .int 10, .str "10"] ∧
      ¬ [Value.int 9, .int 10, .str "10"].Pairwise SortOrder.asc.Puts ∧
      [Value.str "10", .int 9, .int 10].Pairwise SortOrder.asc.Puts := by
  exact ⟨_, rfl, rfl, by decide, by decide⟩

end Item
end Interview
