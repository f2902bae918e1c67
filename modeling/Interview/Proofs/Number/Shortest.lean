import Interview.Number.FloatText
import Interview.Proofs.Number.Decimal

/-! The shortest decimal of a positive float has digits, so no float is written as nothing. -/

namespace Interview.Number

theorem ofDigits_of_zeros {cs : List Char} (h : ∀ c ∈ cs, c = '0') : ofDigits cs = 0 := by
  induction cs with
  | nil => rfl
  | cons c cs ih =>
    obtain ⟨rfl, hrest⟩ := List.forall_mem_cons.mp h
    exact ih hrest

theorem stripZeros_digits_ne_nil {n : Nat} (h : n ≠ 0) (e : Int) :
    (stripZeros (Nat.toDigits 10 n) e).digits ≠ [] := by
  intro hnil
  have hdrop : (Nat.toDigits 10 n).reverse.dropWhile (· == '0') = [] := List.reverse_eq_nil_iff.mp hnil
  have hzeros : ∀ c ∈ Nat.toDigits 10 n, c = '0' := by
    intro c hc
    simpa using List.dropWhile_eq_nil_iff.mp hdrop c (List.mem_reverse.mpr hc)
  have hvalue : ofDigits (Nat.toDigits 10 n) = n := Nat.ofDigitChars_ten_toDigits
  rw [ofDigits_of_zeros hzeros] at hvalue
  exact h hvalue.symm

namespace Grid

variable {g : Grid} {m : Nat}

/-- The distance to the next float, in the unit of the grid. -/
def ulp (q : Int) : Nat := if 0 ≤ q then Nat.pow 2 q.toNat else Nat.pow 5 (-q).toNat

theorem ulp_pos (q : Int) : 0 < ulp q := by
  unfold ulp
  split
  · exact Nat.pow_pos (by decide)
  · exact Nat.pow_pos (by decide)

theorem value_of (m : Nat) (q : Int) : (Grid.of m q).value = m * ulp q := rfl

theorem below_of_le (m : Nat) (q : Int) : (Grid.of m q).below ≤ 2 * ulp q := by
  change (if m = Nat.pow 2 52 ∧ q ≠ -1074 then ulp q else 2 * ulp q) ≤ 2 * ulp q
  split <;> omega

theorem value_ne_zero (h : m ≠ 0) (q : Int) : (Grid.of m q).value ≠ 0 := by
  rw [value_of]
  exact Nat.mul_ne_zero h (ulp_pos q).ne'

theorem contains_zero (h : m ≠ 0) (q : Int) : (Grid.of m q).contains 0 = false := by
  have hvalue : ulp q ≤ (Grid.of m q).value := Nat.le_mul_of_pos_left _ (Nat.pos_of_ne_zero h)
  have hfar : (Grid.of m q).below < 4 * (Grid.of m q).value := by
    have hbelow := below_of_le m q
    have hulp := ulp_pos q
    omega
  unfold contains
  split
  · simp [Nat.not_le.mpr hfar]
  · simp [Nat.not_lt.mpr hfar.le]

theorem pick?_ne_zero (h : g.contains 0 = false) {tie : Tie} {unit n : Nat}
    (hp : g.pick? tie unit = some n) : n ≠ 0 := by
  have hlow (hc : g.contains (g.value / unit * unit) = true) : g.value / unit ≠ 0 := by
    intro hz
    rw [hz, Nat.zero_mul, h] at hc
    cases hc
  unfold pick? at hp
  dsimp only at hp
  split at hp
  · cases hp
  · next hc _ =>
    cases hp
    exact hlow hc
  · cases hp
    exact Nat.succ_ne_zero _
  · next hc _ =>
    have hlow := hlow hc
    split at hp
    · cases hp
      exact hlow
    split at hp
    · cases hp
      exact Nat.succ_ne_zero _
    cases tie with
    | up =>
      cases hp
      exact Nat.succ_ne_zero _
    | even =>
      cases hp
      split
      · exact hlow
      · exact Nat.succ_ne_zero _

theorem search_ne_zero (hv : g.value ≠ 0) (h : g.contains 0 = false) (tie : Tie) (drop : Nat) :
    (g.search tie drop).1 ≠ 0 := by
  induction drop with
  | zero => exact hv
  | succ drop ih =>
    unfold search
    split
    · next n hp => exact pick?_ne_zero h hp
    · exact ih

end Grid

theorem shortest_digits_ne_nil {m : Nat} (h : m ≠ 0) (tie : Tie) (q : Int) :
    (shortest tie m q).digits ≠ [] :=
  stripZeros_digits_ne_nil
    (Grid.search_ne_zero (Grid.value_ne_zero h q) (Grid.contains_zero h q) tie _) _

theorem Decimal.positional_ne_nil {d : Decimal} (h : d.digits ≠ []) : d.positional ≠ [] := by
  unfold Decimal.positional
  split
  · simp [h]
  · dsimp only
    split <;> simp

theorem floatText_ne_nil (x : Binary64) : floatText x ≠ [] := by
  unfold floatText
  dsimp only
  split
  · decide
  · split <;> decide
  · next m q _ =>
    have hbody : (if m = 0 then ['0'] else (shortest .up m q).positional) ≠ [] := by
      split
      · decide
      · next hm => exact Decimal.positional_ne_nil (shortest_digits_ne_nil hm .up q)
    split
    · simp
    · exact hbody

end Interview.Number
