import Interview.Answers.Script
import Interview.Proofs.Text.Cutting
import Interview.Proofs.Text.Trimming

/-! The replies of a script, call by call. Each line that starts with the answer prefix is delivered once, in
the order of the lines, and what is passed over on the way is context, or nothing. -/

namespace Interview

namespace AnswerFormat

def IsAnswer (f : AnswerFormat) (line : List Char) : Prop := f.answer.toList <+: line

def IsContext (f : AnswerFormat) (line : List Char) : Prop :=
  ¬ f.answer.toList <+: line ∧ ¬ f.separator.toList <+: line

instance (f : AnswerFormat) : DecidablePred f.IsAnswer := fun line =>
  inferInstanceAs (Decidable (f.answer.toList <+: line))

instance (f : AnswerFormat) : DecidablePred f.IsContext := fun line =>
  inferInstanceAs (Decidable (¬ f.answer.toList <+: line ∧ ¬ f.separator.toList <+: line))

def replyOn (f : AnswerFormat) (line : List Char) : String :=
  String.ofList (Text.trim (line.drop f.answer.length))

def contextOf (f : AnswerFormat) (lines : List (List Char)) : List String :=
  (lines.filter f.IsContext).map String.ofList

variable {f : AnswerFormat} {line reply : List Char} {lines : List (List Char)}

theorem isAnswer_of_strip (h : Text.stripPrefix? f.answer.toList line = some reply) :
    f.IsAnswer line ∧ f.replyOn line = String.ofList (Text.trim reply) := by
  have hline := Text.stripPrefix?_eq_some.mp h
  refine ⟨⟨reply, hline.symm⟩, ?_⟩
  have hdrop : line.drop f.answer.length = reply := by
    rw [hline, ← String.length_toList, List.drop_left]
  rw [replyOn, hdrop]

theorem not_isAnswer_of_strip (h : Text.stripPrefix? f.answer.toList line = none) :
    ¬ f.IsAnswer line := by
  intro ha
  have hs := Text.stripPrefix?_isSome.mpr ha
  rw [h] at hs
  cases hs

theorem contextOf_cons (h : ¬ f.IsAnswer line) :
    f.contextOf (line :: lines) =
      if Script.startsWith f.separator line then f.contextOf lines
      else String.ofList line :: f.contextOf lines := by
  have hstart : Script.startsWith f.separator line = true ↔ f.separator.toList <+: line :=
    Text.stripPrefix?_isSome
  by_cases hs : Script.startsWith f.separator line = true
  · have hnot : ¬ f.IsContext line := fun hc => hc.2 (hstart.mp hs)
    simp [contextOf, hs, hnot]
  · have hcontext : f.IsContext line := ⟨h, fun hp => hs (hstart.mpr hp)⟩
    simp [contextOf, hs, hcontext]

end AnswerFormat

namespace Script

variable {s : Script} {f : AnswerFormat} {line : List Char} {lines rest : List (List Char)}

theorem read_answer (h : f.IsAnswer line) (rest : List (List Char)) :
    read f (line :: rest) = ⟨some (f.replyOn line), [], rest⟩ := by
  cases hp : Text.stripPrefix? f.answer.toList line with
  | none => exact absurd h (AnswerFormat.not_isAnswer_of_strip hp)
  | some reply =>
    have hreply := (AnswerFormat.isAnswer_of_strip hp).2
    simp [read, hp, hreply]

theorem read_other (h : ¬ f.IsAnswer line) (rest : List (List Char)) :
    read f (line :: rest) =
      { read f rest with
        context := if startsWith f.separator line then (read f rest).context
          else String.ofList line :: (read f rest).context } := by
  cases hp : Text.stripPrefix? f.answer.toList line with
  | some reply => exact absurd (AnswerFormat.isAnswer_of_strip hp).1 h
  | none =>
    simp only [read, hp]
    split <;> rfl

/-- One reading passes over the lines before the first reply, or over all of them. -/
theorem read_cases (f : AnswerFormat) (lines : List (List Char)) :
    (∃ passed line rest, lines = passed ++ line :: rest ∧ (∀ l ∈ passed, ¬ f.IsAnswer l) ∧
      f.IsAnswer line ∧ read f lines = ⟨some (f.replyOn line), f.contextOf passed, rest⟩) ∨
    (∀ l ∈ lines, ¬ f.IsAnswer l) ∧ read f lines = ⟨none, f.contextOf lines, []⟩ := by
  induction lines with
  | nil => exact .inr ⟨by simp, rfl⟩
  | cons first lines ih =>
    by_cases ha : f.IsAnswer first
    · exact .inl ⟨[], first, lines, rfl, by simp, ha, read_answer ha lines⟩
    · have hread := read_other ha lines
      rcases ih with ⟨passed, line, rest, rfl, hpassed, hline, hr⟩ | ⟨hnone, hr⟩
      · refine .inl ⟨first :: passed, line, rest, rfl, ?_, hline, ?_⟩
        · simpa using ⟨ha, hpassed⟩
        · rw [hread, hr, AnswerFormat.contextOf_cons ha]
      · refine .inr ⟨?_, ?_⟩
        · simpa using ⟨ha, hnone⟩
        · rw [hread, hr, AnswerFormat.contextOf_cons ha]

/-- A call consumes the lines up to the first reply, which is given, or all that are left. -/
inductive Call (s : Script) : Except Error String → Script → Prop
  | reply {passed rest : List (List Char)} {line : List Char} :
    s.lines = passed ++ line :: rest → (∀ l ∈ passed, ¬ s.format.IsAnswer l) → s.format.IsAnswer line →
    Call s (.ok (s.format.replyOn line)) { s with lines := rest, context := s.format.contextOf passed }
  | exhausted : (∀ l ∈ s.lines, ¬ s.format.IsAnswer l) →
    Call s (.error .answersExhausted) { s with lines := [], context := s.format.contextOf s.lines }

theorem next_call (s : Script) : Call s s.next.1 s.next.2 := by
  rcases read_cases s.format s.lines with ⟨passed, line, rest, hs, hpassed, hline, hr⟩ | ⟨hnone, hr⟩
  · have hnext : s.next = (.ok (s.format.replyOn line),
        { s with lines := rest, context := s.format.contextOf passed }) := by
      rw [next, hr]
    rw [hnext]
    exact .reply hs hpassed hline
  · have hnext : s.next = (.error .answersExhausted,
        { s with lines := [], context := s.format.contextOf s.lines }) := by
      rw [next, hr]
    rw [hnext]
    exact .exhausted hnone

def answers (s : Script) : List (List Char) := s.lines.filter s.format.IsAnswer

def after (s : Script) : Nat → Script
  | 0 => s
  | k + 1 => (s.after k).next.2

variable {t : Script} {r : Except Error String}

theorem Call.format_eq (h : Call s r t) : t.format = s.format := by
  cases h <;> rfl

theorem Call.suffix (h : Call s r t) : t.lines <:+ s.lines := by
  cases h with
  | @reply passed rest line hs _ _ => exact ⟨passed ++ [line], by simp [hs]⟩
  | exhausted _ => exact List.nil_suffix

theorem Call.answers_eq (h : Call s r t) :
    t.answers = s.answers.tail ∧
      r = match s.answers.head? with
        | some line => .ok (s.format.replyOn line)
        | none => .error .answersExhausted := by
  cases h with
  | @reply passed rest line hs hpassed hline =>
    have hskip : passed.filter (fun l => s.format.IsAnswer l) = [] := by simpa using hpassed
    have hanswers : s.answers = line :: rest.filter (fun l => s.format.IsAnswer l) := by
      simp [answers, hs, hskip, hline]
    rw [hanswers]
    exact ⟨rfl, rfl⟩
  | exhausted hnone =>
    have hanswers : s.answers = [] := by simpa [answers] using hnone
    rw [hanswers]
    exact ⟨rfl, rfl⟩

theorem Call.remaining_le (h : Call s r t) : t.remaining ≤ s.remaining :=
  (h.suffix.sublist.filter _).length_le

theorem Call.remaining_of_error {e : Error} (h : Call s (.error e) t) : t.remaining = 0 := by
  cases h
  rfl

theorem format_after (s : Script) (k : Nat) : (s.after k).format = s.format := by
  induction k with
  | zero => rfl
  | succ k ih => exact (next_call (s.after k)).format_eq.trans ih

theorem answers_after (s : Script) (k : Nat) : (s.after k).answers = s.answers.drop k := by
  induction k with
  | zero => rfl
  | succ k ih =>
    have htail : (s.after (k + 1)).answers = (s.after k).answers.tail :=
      (next_call (s.after k)).answers_eq.1
    rw [htail, ih, List.tail_drop]

theorem suffix_after (s : Script) (k : Nat) : (s.after k).lines <:+ s.lines := by
  induction k with
  | zero => exact List.suffix_refl _
  | succ k ih => exact (next_call (s.after k)).suffix.trans ih

/-- The replies on the lines, one for each call, and after them nothing but exhaustion. -/
theorem next_after (s : Script) (k : Nat) :
    (s.after k).next.1 =
      match s.answers[k]? with
      | some line => .ok (s.format.replyOn line)
      | none => .error .answersExhausted := by
  have hnext := (next_call (s.after k)).answers_eq.2
  rwa [answers_after, List.head?_drop, format_after] at hnext

theorem remaining_of_trimmed (h : s.lines = lines.map Text.trim) :
    s.remaining = (lines.filter fun line => !line.all Text.isBlank).length := by
  have hblank (line : List Char) : (Text.trim line).isEmpty = line.all Text.isBlank := by
    rw [Bool.eq_iff_iff, List.isEmpty_iff, Text.trim_eq_nil_iff, List.all_eq_true]
  rw [remaining, h, List.filter_map, List.length_map]
  simp only [Function.comp_def, hblank]

/-- Whatever the lines, the prefix and the separator are, the calls give the replies on the trimmed lines
that start with the prefix, each once and in order, and then nothing but exhaustion. Every call consumes
the lines up to its reply, with the context that is among them, and the lines not yet consumed are those
that remain. -/
theorem calls_deliver (lines : List (List Char)) (f : AnswerFormat) (k : Nat) :
    let s := ofLines lines f
    let answers := (lines.map Text.trim).filter f.IsAnswer
    (match answers[k]? with
      | some line => (s.after k).next.1 = .ok (f.replyOn line)
      | none => (s.after k).next.1 = .error .answersExhausted ∧ (s.after (k + 1)).remaining = 0) ∧
    Call (s.after k) (s.after k).next.1 (s.after (k + 1)) ∧
    (∃ consumed, (s.after k).lines = (lines.drop consumed).map Text.trim ∧
      (s.after k).remaining =
        ((lines.drop consumed).filter fun line => !line.all Text.isBlank).length) ∧
    (s.after (k + 1)).remaining ≤ (s.after k).remaining := by
  intro s answers
  have hnext : (s.after k).next.1 =
      match answers[k]? with
      | some line => .ok (f.replyOn line)
      | none => .error .answersExhausted := next_after s k
  have hcall : Call (s.after k) (s.after k).next.1 (s.after (k + 1)) := next_call (s.after k)
  refine ⟨?_, hcall, ?_, hcall.remaining_le⟩
  · cases ha : answers[k]? with
    | some line => simpa [ha] using hnext
    | none =>
      have hend : (s.after k).next.1 = .error .answersExhausted := by simpa [ha] using hnext
      rw [hend] at hcall
      exact ⟨hend, hcall.remaining_of_error⟩
  · obtain ⟨before, hbefore⟩ := suffix_after s k
    have hs : before ++ (s.after k).lines = lines.map Text.trim := hbefore
    have hlines : (s.after k).lines = (lines.drop before.length).map Text.trim := by
      rw [List.map_drop, ← hs, List.drop_left]
    exact ⟨before.length, hlines, remaining_of_trimmed hlines⟩

end Script
end Interview
