import Interview.Number.Integer
import Interview.Proofs.Text.Trimming

/-! Integers as decimal text. What is written reads back as the same integer, so no two integers are
written alike, and the text has neither blanks nor dots in it. -/

namespace Interview

namespace Number

theorem isDigit_eq (c : Char) : isDigit c = c.isDigit := by
  simp [isDigit, Char.isDigit, Char.le_def]

theorem isDigit_of_mem_toDigits {n : Nat} {c : Char} (h : c ∈ Nat.toDigits 10 n) :
    isDigit c = true := by
  rw [isDigit_eq]
  exact Nat.isDigit_of_mem_toDigits (by decide) (by decide) h

theorem nat?_toDigits (n : Nat) : nat? (Nat.toDigits 10 n) = some n := by
  have hne : (Nat.toDigits 10 n).isEmpty = false := by simp [Nat.toDigits_ne_nil]
  have hall : (Nat.toDigits 10 n).all isDigit = true :=
    List.all_eq_true.mpr fun c hc => isDigit_of_mem_toDigits hc
  have hvalue : ofDigits (Nat.toDigits 10 n) = n := Nat.ofDigitChars_ten_toDigits
  simp [nat?, hne, hall, hvalue]

theorem int?_of_digit {c : Char} {cs : List Char} (hc : isDigit c = true) :
    int? (c :: cs) = (nat? (c :: cs)).map Int.ofNat := by
  unfold int?
  split
  · next h =>
    obtain ⟨rfl, -⟩ := List.cons.inj h
    cases hc
  · next h =>
    obtain ⟨rfl, -⟩ := List.cons.inj h
    cases hc
  · rfl

theorem int?_intText (n : Int) : int? (intText n) = some n := by
  unfold intText
  by_cases hn : n < 0
  · rw [if_pos hn]
    have hneg : -(n.natAbs : Int) = n := by omega
    rw [int?, nat?_toDigits]
    exact congrArg some hneg
  · rw [if_neg hn]
    obtain ⟨c, cs, hcs⟩ := List.exists_cons_of_ne_nil (Nat.toDigits_ne_nil (n := n.natAbs) (b := 10))
    have hc : isDigit c = true := isDigit_of_mem_toDigits (n := n.natAbs) (by simp [hcs])
    rw [hcs, int?_of_digit hc, ← hcs, nat?_toDigits]
    exact congrArg some (Int.natAbs_of_nonneg (Int.not_lt.mp hn))

theorem intText_inj {m n : Int} (h : intText m = intText n) : m = n := by
  have hm := int?_intText m
  rw [h, int?_intText] at hm
  exact (Option.some.inj hm).symm

theorem toInt64?_toInt (n : Int64) : toInt64? n.toInt = some n := by
  have hlow := n.minValue_le_toInt
  have hhigh := n.toInt_le
  rw [toInt64?, if_pos ⟨hlow, hhigh⟩, Int64.ofInt_toInt]

theorem int64?_intText (n : Int64) : int64? (intText n.toInt) = some n := by
  rw [int64?, int?_intText]
  exact toInt64?_toInt n

theorem mem_intText {n : Int} {c : Char} (h : c ∈ intText n) : c = '-' ∨ isDigit c = true := by
  unfold intText at h
  split at h
  · rcases List.mem_cons.mp h with rfl | h
    · exact .inl rfl
    · exact .inr (isDigit_of_mem_toDigits h)
  · exact .inr (isDigit_of_mem_toDigits h)

theorem noDot_intText (n : Int) : '.' ∉ intText n := by
  intro h
  rcases mem_intText h with hc | hc <;> cases hc

theorem intText_ne_nil (n : Int) : intText n ≠ [] := by
  unfold intText
  split
  · simp
  · exact Nat.toDigits_ne_nil

theorem isBlank_of_isDigit {c : Char} (h : isDigit c = true) : Text.isBlank c = false := by
  have hrange : '0'.toNat ≤ c.toNat ∧ c.toNat ≤ '9'.toNat := by
    simpa [isDigit, Char.le_def, UInt32.le_iff_toNat_le] using h
  simp only [Text.isBlank]
  simp at hrange ⊢
  omega

theorem isBlank_of_mem_intText {n : Int} {c : Char} (h : c ∈ intText n) : Text.isBlank c = false := by
  rcases mem_intText h with rfl | hc
  · rfl
  · exact isBlank_of_isDigit hc

theorem trim_intText (n : Int) : Text.trim (intText n) = intText n :=
  Text.trim_of_no_blank fun _ => isBlank_of_mem_intText

end Number
end Interview
