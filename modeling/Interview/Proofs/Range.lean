import Interview.Proofs.Number.Decimal
import Interview.Proofs.Text.Trimming
import Interview.Range

/-! Ranges of integers of 64 bits. The text of a range gives back its bounds and its step, whatever their
signs are, and membership is exact at both ends of the 64 bits: the difference to the lower bound and the
remainder by the step never overflow in words of 128 bits. -/

namespace Interview

open Number

namespace Text

variable {sep : Char} {before : List Char}

theorem cutOnce_append_cons (h : sep ∉ before) (after : List Char) :
    cutOnce sep (before ++ sep :: after) = some (before, after) := by
  induction before with
  | nil => simp [cutOnce]
  | cons c before ih =>
    obtain ⟨hc, hrest⟩ := not_or.mp (mt List.mem_cons.mpr h)
    simp [cutOnce, Ne.symm hc, ih hrest]

theorem cutOnce_eq_none (h : sep ∉ before) : cutOnce sep before = none := by
  induction before with
  | nil => rfl
  | cons c before ih =>
    obtain ⟨hc, hrest⟩ := not_or.mp (mt List.mem_cons.mpr h)
    simp [cutOnce, Ne.symm hc, ih hrest]

end Text

namespace Number

theorem intText_eq_cons (n : Int) : ∃ c rest, intText n = c :: rest ∧ ∀ d ∈ rest, isDigit d = true := by
  unfold intText
  split
  · exact ⟨'-', _, rfl, fun d hd => isDigit_of_mem_toDigits hd⟩
  · obtain ⟨c, rest, hdigits⟩ := List.exists_cons_of_ne_nil (Nat.toDigits_ne_nil (n := n.natAbs) (b := 10))
    refine ⟨c, rest, hdigits, fun d hd => ?_⟩
    have hmem : d ∈ Nat.toDigits 10 n.natAbs := by rw [hdigits]; exact List.mem_cons_of_mem c hd
    exact isDigit_of_mem_toDigits hmem

end Number

namespace Range

/-- An integer as text, with blanks around it or without. -/
inductive Written (n : Int64) : List Char → Prop
  | spaced {before after : List Char} : (∀ c ∈ before, Text.isBlank c = true) →
    (∀ c ∈ after, Text.isBlank c = true) → Written n (before ++ intText n.toInt ++ after)

/-- What stands behind the bounds: a colon and the step, or nothing for a step of one. -/
inductive StepWritten : Int64 → List Char → Prop
  | absent : StepWritten 1 []
  | blank {blanks : List Char} : (∀ c ∈ blanks, Text.isBlank c = true) → StepWritten 1 (':' :: blanks)
  | given {n : Int64} {cs : List Char} : Written n cs → StepWritten n (':' :: cs)

variable {n low high step : Int64} {cs lows highs steps : List Char}

theorem Written.not_mem (h : Written n cs) {c : Char} (hb : Text.isBlank c = false) (hm : c ≠ '-')
    (hd : isDigit c = false) : c ∉ cs := by
  intro hc
  cases h with
  | @spaced before after hbefore hafter =>
    simp only [List.mem_append] at hc
    rcases hc with (hc | hc) | hc
    · simp [hbefore c hc] at hb
    · rcases mem_intText hc with rfl | hc
      · exact hm rfl
      · simp [hc] at hd
    · simp [hafter c hc] at hb

theorem Written.trim_eq (h : Written n cs) : Text.trim cs = intText n.toInt := by
  cases h with
  | spaced hbefore hafter =>
    exact Text.trim_spaced (fun _ => isBlank_of_mem_intText) (intText_ne_nil _) hbefore hafter

theorem Written.trimEnd (h : Written n cs) : Written n (Text.trimEnd cs) := by
  cases h with
  | @spaced before after hbefore hafter =>
    rw [Text.trimEnd_append_blank hafter,
      Text.trimEnd_append_solid (fun _ => isBlank_of_mem_intText) (intText_ne_nil _)]
    simpa using Written.spaced (n := n) hbefore (List.forall_mem_nil _)

theorem StepWritten.trimEnd (h : StepWritten n cs) : StepWritten n (Text.trimEnd cs) := by
  have hcolon (rest : List Char) : Text.trimEnd (':' :: rest) = ':' :: Text.trimEnd rest :=
    Text.trimEnd_append_cons rfl [] rest
  cases h with
  | absent => exact .absent
  | blank hb =>
    rw [hcolon, Text.trimEnd_of_blank hb]
    exact .blank (List.forall_mem_nil _)
  | given h =>
    rw [hcolon]
    exact .given h.trimEnd

theorem exists_trimmed (hh : Written high highs) (hs : StepWritten step steps) :
    ∃ highs' steps', Text.trimEnd (highs ++ steps) = highs' ++ steps' ∧ Written high highs' ∧
      StepWritten step steps' := by
  -- blanks at the end of the text belong to its last part
  cases steps with
  | nil => exact ⟨Text.trimEnd highs, [], by simp, hh.trimEnd, hs⟩
  | cons c rest =>
    have hcolon : c = ':' := by cases hs <;> rfl
    have hblank : Text.isBlank c = false := by rw [hcolon]; rfl
    have htrim : Text.trimEnd (c :: rest) = c :: Text.trimEnd rest :=
      Text.trimEnd_append_cons hblank [] rest
    refine ⟨highs, c :: Text.trimEnd rest, Text.trimEnd_append_cons hblank highs rest, hh, ?_⟩
    rw [← htrim]
    exact hs.trimEnd

def partsBehind (low rest : List Char) : Parts :=
  match Text.cutOnce ':' rest with
  | some (high, step) =>
    ⟨low, Text.trim high, if (Text.trim step).isEmpty then none else some (Text.trim step)⟩
  | none => ⟨low, Text.trim rest, none⟩

theorem parts?_eq {c : Char} {before : List Char} (h : '-' ∉ before) (after : List Char) :
    parts? (c :: (before ++ '-' :: after)) = some (partsBehind (Text.trim (c :: before)) after) := by
  rw [parts?, Text.cutOnce_append_cons h]
  rfl

theorem int?_partsBehind (hh : Written high highs) (hs : StepWritten step steps) :
    (partsBehind (intText low.toInt) (highs ++ steps)).int? = some (.int low high step) := by
  have hcolon : ':' ∉ highs := hh.not_mem rfl (by decide) rfl
  unfold partsBehind
  cases hs with
  | absent =>
    rw [List.append_nil, Text.cutOnce_eq_none hcolon]
    simp [Parts.int?, hh.trim_eq, int64?_intText]
  | @blank blanks hb =>
    rw [Text.cutOnce_append_cons hcolon]
    simp [Parts.int?, hh.trim_eq, int64?_intText, Text.trim_eq_nil_iff.mpr hb]
  | given h =>
    rw [Text.cutOnce_append_cons hcolon]
    simp [Parts.int?, hh.trim_eq, h.trim_eq, int64?_intText, intText_ne_nil]

theorem exists_parts (hl : Written low lows) (hh : Written high highs) (hs : StepWritten step steps) :
    ∃ p, parts? (Text.trim (lows ++ '-' :: (highs ++ steps))) = some p ∧
      p.int? = some (.int low high step) := by
  obtain ⟨highs', steps', htrim, hh', hs'⟩ := exists_trimmed hh hs
  cases hl with
  | @spaced before after hbefore hafter =>
    obtain ⟨c, rest, htext, hdigits⟩ := intText_eq_cons low.toInt
    -- the first character may be the sign of the bound, so the separator is looked for behind it
    have hwhole : Text.trim (before ++ intText low.toInt ++ after ++ '-' :: (highs ++ steps)) =
        c :: (rest ++ after ++ '-' :: (highs' ++ steps')) := by
      have hmove : before ++ intText low.toInt ++ after ++ '-' :: (highs ++ steps) =
          before ++ (intText low.toInt ++ (after ++ '-' :: (highs ++ steps))) := by simp
      rw [hmove, Text.trim, Text.trimStart_blank_append hbefore,
        Text.trimStart_solid_append (fun _ => isBlank_of_mem_intText) (intText_ne_nil _),
        ← List.append_assoc, Text.trimEnd_append_cons rfl, htrim, htext]
      simp
    have hminus : '-' ∉ rest ++ after := by
      intro hm
      rcases List.mem_append.mp hm with hm | hm
      · exact absurd (hdigits _ hm) (by decide)
      · exact absurd (hafter _ hm) (by decide)
    have hlow : Text.trim (c :: (rest ++ after)) = intText low.toInt := by
      rw [← List.cons_append, ← htext]
      exact Text.trim_spaced (fun _ => isBlank_of_mem_intText) (intText_ne_nil _)
        (List.forall_mem_nil _) hafter
    rw [hwhole, parts?_eq hminus, hlow]
    exact ⟨_, rfl, int?_partsBehind hh' hs'⟩

theorem parse_written {type : Option ValueType} (ht : type ≠ some .float) (hz : step ≠ 0)
    (hl : Written low lows) (hh : Written high highs) (hs : StepWritten step steps) :
    parse type (String.ofList (lows ++ '-' :: (highs ++ steps))) = .ok (.int low high step) := by
  obtain ⟨p, hp, hint⟩ := exists_parts hl hh hs
  simp [parse, hp, ht, hint, hasZeroStep, hz]

theorem step_ne_zero {type : Option ValueType} {spec : String}
    (h : parse type spec = .ok (.int low high step)) : step ≠ 0 := by
  intro hz
  unfold parse at h
  dsimp only at h
  split at h
  · cases h
  · next r _ =>
    split at h
    · cases h
    · next hstep =>
      cases h
      simp [hasZeroStep, hz] at hstep

section Words

def wide (n : Int64) : BitVec 128 := n.toBitVec.signExtend 128

def difference? (x y : BitVec 128) : Option (BitVec 128) :=
  if x.ssubOverflow y then none else some (x - y)

def remainder? (x y : BitVec 128) : Option (BitVec 128) :=
  if y = 0 ∨ x.sdivOverflow y then none else some (x.srem y)

/-- Whether a number is whole steps away from the lower bound; nothing if that cannot be computed. -/
def inStep? (low step n : Int64) : Option Bool := do
  let distance ← difference? (wide n) (wide low)
  let rest ← remainder? distance (wide step)
  return rest == 0

theorem toInt_wide (n : Int64) : (wide n).toInt = n.toInt := by
  rw [wide, BitVec.toInt_signExtend_of_le (by decide), Int64.toInt_toBitVec]

theorem natAbs_distance_lt (low n : Int64) : (n.toInt - low.toInt).natAbs < 36893488147419103232 := by
  have hn : -9223372036854775808 ≤ n.toInt := n.minValue_le_toInt
  have hn' : n.toInt ≤ 9223372036854775807 := n.toInt_le
  have hl : -9223372036854775808 ≤ low.toInt := low.minValue_le_toInt
  have hl' : low.toInt ≤ 9223372036854775807 := low.toInt_le
  omega

theorem difference?_wide (low n : Int64) :
    ∃ d, difference? (wide n) (wide low) = some d ∧ d.toInt = n.toInt - low.toInt := by
  have hsmall := natAbs_distance_lt low n
  have hover : (wide n).ssubOverflow (wide low) = false := by
    simp only [BitVec.ssubOverflow, toInt_wide, Bool.or_eq_false_iff, decide_eq_false_iff_not]
    omega
  have hnot : ¬ (wide n).ssubOverflow (wide low) = true := by simp [hover]
  have hdifference : difference? (wide n) (wide low) = some (wide n - wide low) := by
    rw [difference?, if_neg hnot]
  have hvalue : (wide n - wide low).toInt = n.toInt - low.toInt := by
    rw [BitVec.toInt_sub_of_not_ssubOverflow hnot, toInt_wide, toInt_wide]
  exact ⟨_, hdifference, hvalue⟩

theorem remainder?_wide {d : BitVec 128} (hz : step ≠ 0) (hd : d.toInt.natAbs < 36893488147419103232) :
    remainder? d (wide step) = some (d.srem (wide step)) := by
  have hne : wide step ≠ 0 := by
    intro h
    have hzero : step.toInt = (0 : Int64).toInt := by
      rw [← toInt_wide, h]
      rfl
    exact hz (Int64.toInt_inj.mp hzero)
  have hover : d.sdivOverflow (wide step) = false := by
    have hquotient := Int.natAbs_ediv_le_natAbs d.toInt (wide step).toInt
    simp only [BitVec.sdivOverflow, Bool.or_eq_false_iff, decide_eq_false_iff_not]
    omega
  have hdefined : ¬ (wide step = 0 ∨ d.sdivOverflow (wide step) = true) := by simpa [hover] using hne
  rw [remainder?, if_neg hdefined]

theorem inStep?_eq (hz : step ≠ 0) (low n : Int64) :
    inStep? low step n = some (decide (step.toInt ∣ n.toInt - low.toInt)) := by
  obtain ⟨d, hd, hvalue⟩ := difference?_wide low n
  have hsmall : d.toInt.natAbs < 36893488147419103232 := by
    rw [hvalue]
    exact natAbs_distance_lt low n
  have hzero : (d.srem (wide step) == 0) = decide (step.toInt ∣ n.toInt - low.toInt) := by
    rw [Bool.eq_iff_iff, beq_iff_eq, decide_eq_true_iff, ← BitVec.toInt_inj, BitVec.toInt_srem, hvalue,
      toInt_wide, Int.dvd_iff_tmod_eq_zero]
    rfl
  rw [inStep?, hd, Option.bind_eq_bind, Option.bind_some, remainder?_wide hz hsmall]
  exact congrArg some hzero

end Words

theorem contains_int (low high step n : Int64) :
    contains (.int n) (.int low high step) =
      .ok (decide (low ≤ n ∧ n ≤ high ∧ step.toInt ∣ n.toInt - low.toInt)) := by
  have hstep : ((n.toInt - low.toInt) % step.toInt == 0) = decide (step.toInt ∣ n.toInt - low.toInt) := by
    rw [Bool.eq_iff_iff, beq_iff_eq, decide_eq_true_iff, Int.dvd_iff_emod_eq_zero]
  simp only [contains, Value.toInteger, Except.map, hstep, Bool.decide_and, Bool.and_assoc]

/-- The text of a range of integers, blanks or not and whatever the signs, is read as just this range, for
every type but that of floats; without a step the step is one. No text is read as a range of integers with
a step of zero, and those that are read hold just the numbers between their bounds that are whole steps
away from the lower one, which is computed in words of 128 bits without overflow. -/
theorem parse_and_contains_exactly :
    (∀ type, type ≠ some .float → ∀ low high step lows highs steps, step ≠ 0 → Written low lows →
      Written high highs → StepWritten step steps →
      parse type (String.ofList (lows ++ '-' :: (highs ++ steps))) = .ok (.int low high step)) ∧
    ∀ type spec low high step, parse type spec = .ok (.int low high step) →
      step ≠ 0 ∧ ∀ n : Int64,
        contains (.int n) (.int low high step) =
          .ok (decide (low ≤ n ∧ n ≤ high ∧ step.toInt ∣ n.toInt - low.toInt)) ∧
        inStep? low step n = some (decide (step.toInt ∣ n.toInt - low.toInt)) := by
  refine ⟨?_, ?_⟩
  · intro type ht low high step lows highs steps hz hl hh hs
    exact parse_written ht hz hl hh hs
  · intro type spec low high step h
    have hz := step_ne_zero h
    exact ⟨hz, fun n => ⟨contains_int low high step n, inStep?_eq hz low n⟩⟩

/-- Blanks around a negative bound, and a negative step, at the lower end of the 64 bits. -/
theorem parse_and_contains_exactly_negative :
    parse none " -9223372036854775808 - -4 : -3" = .ok (.int (-9223372036854775808) (-4) (-3)) ∧
      ∀ n : Int64, contains (.int n) (.int (-9223372036854775808) (-4) (-3)) =
        .ok (decide (-9223372036854775808 ≤ n ∧ n ≤ -4 ∧ (-3 : Int64).toInt ∣
          n.toInt - (-9223372036854775808 : Int64).toInt)) := by
  have hblank : ∀ c ∈ [' '], Text.isBlank c = true := by simp [Text.isBlank]
  have hlow : Written (-9223372036854775808) " -9223372036854775808 ".toList := .spaced hblank hblank
  have hhigh : Written (-4) " -4 ".toList := .spaced hblank hblank
  have hstep : StepWritten (-3) ": -3".toList := .given (.spaced hblank (List.forall_mem_nil _))
  obtain ⟨hparse, hrange⟩ := parse_and_contains_exactly
  have htext : " -9223372036854775808 - -4 : -3" = String.ofList
      (" -9223372036854775808 ".toList ++ '-' :: (" -4 ".toList ++ ": -3".toList)) := by decide
  have hread : parse none " -9223372036854775808 - -4 : -3" =
      .ok (.int (-9223372036854775808) (-4) (-3)) := by
    rw [htext]
    exact hparse none (by decide) _ _ _ _ _ _ (by decide) hlow hhigh hstep
  exact ⟨hread, fun n => ((hrange _ _ _ _ _ hread).2 n).1⟩

end Range
end Interview
