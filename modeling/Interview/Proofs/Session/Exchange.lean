import Interview.Proofs.Answers.Delivery
import Interview.Proofs.Session.Lasting
import Interview.Proofs.Session.Rounds

/-! Runs on scripted replies beside the plain loop that asks for an item, takes the next reply and stores
it. What is displayed on the way makes no difference to the store, the includes or the outcome, and a run
that fails on a reply, or for lack of one, keeps all that was stored before. -/

namespace Interview

namespace Script

def repliesIn (format : AnswerFormat) (lines : List (List Char)) : List String :=
  lines.filterMap fun line =>
    (Text.stripPrefix? format.answer.toList line).map fun reply => String.ofList (Text.trim reply)

def replies (s : Script) : List String := repliesIn s.format s.lines

theorem replies_eq (s : Script) : s.replies = s.answers.map s.format.replyOn := by
  obtain ⟨lines, format, context⟩ := s
  change repliesIn format lines = (lines.filter format.IsAnswer).map format.replyOn
  induction lines with
  | nil => rfl
  | cons line rest ih =>
    cases hp : Text.stripPrefix? format.answer.toList line with
    | some reply =>
      obtain ⟨hanswer, hreply⟩ := AnswerFormat.isAnswer_of_strip hp
      rw [List.filter_cons_of_pos (by simpa using hanswer), List.map_cons, ← ih, hreply]
      simp [repliesIn, hp]
    | none =>
      have hother := AnswerFormat.not_isAnswer_of_strip hp
      rw [List.filter_cons_of_neg (by simpa using hother), ← ih]
      simp [repliesIn, hp]

theorem next_ok {s rest : Script} {reply : String} (h : s.next = (.ok reply, rest)) :
    s.replies = reply :: rest.replies := by
  have hcall := next_call s
  rw [h] at hcall
  obtain ⟨htail, hhead⟩ := hcall.answers_eq
  rw [replies_eq, replies_eq, hcall.format_eq, htail]
  cases hs : s.answers with
  | nil =>
    rw [hs] at hhead
    cases hhead
  | cons line more =>
    rw [hs] at hhead
    cases hhead
    rfl

theorem next_error {s rest : Script} {e : Error} (h : s.next = (.error e, rest)) :
    e = .answersExhausted ∧ s.replies = [] := by
  have hcall := next_call s
  rw [h] at hcall
  obtain ⟨-, hhead⟩ := hcall.answers_eq
  rw [replies_eq]
  cases hs : s.answers with
  | nil =>
    rw [hs] at hhead
    cases hhead
    exact ⟨rfl, rfl⟩
  | cons line more =>
    rw [hs] at hhead
    cases hhead

end Script

structure Exchange where
  /-- The error that ended it, if it was not that nothing was left to ask. -/
  ended : Except Error Unit
  stored : List (Item × Value)
  /-- The session as the last call of `next` left it. -/
  asked : Session
  session : Session
  script : Script

/-- What is left of a run, whatever was displayed: its outcome, the settings, the included documents and
the script. -/
structure Aftermath where
  outcome : Except Error RunOutcome
  store : Settings
  includes : IncludeCache
  script : Script

def Exchange.aftermath (x : Exchange) : Aftermath where
  outcome := x.ended.map fun _ => .completed x.stored.length x.script.remaining
  store := x.session.store
  includes := x.session.progress.includes
  script := x.script

def RunState.aftermath (r : RunState Script) (outcome : Except Error RunOutcome) : Aftermath where
  outcome := outcome
  store := r.session.store
  includes := r.session.progress.includes
  script := r.source

namespace Session

/-- The loop without a display: `next`, the next reply, `answer`, until nothing is left to ask or one of
them fails. There is no answer only if that takes more than so many items, or more than the caller's
patience for one of them. -/
def exchange (fs : FileSystem) (patience : Nat) : Nat → Session → Script → Option Exchange
  | 0, _, _ => none
  | items + 1, s, script =>
    match s.next fs patience with
    | none => none
    | some (.error e, asked) => some ⟨.error e, [], asked, asked, script⟩
    | some (.ok none, asked) => some ⟨.ok (), [], asked, asked, script⟩
    | some (.ok (some item), asked) =>
      match script.next with
      | (.error e, script) => some ⟨.error e, [], asked, asked, script⟩
      | (.ok reply, script) =>
        match asked.answer item reply with
        | (.error e, session) => some ⟨.error e, [], asked, session, script⟩
        | (.ok value, session) =>
          (exchange fs patience items session script).map fun x =>
            { x with stored := (item, value) :: x.stored }

end Session

namespace Run

variable {r : RunState Script}

/-- Where the output never fails, a turn takes the next reply and stores it, or fails as these do. -/
theorem turn_scripted (h : r.output.room = none) (options : RunOptions) (answered : Nat) (item : Item) :
    ∃ output : Output, output.room = none ∧
      (turn Script.source options answered item).exec r =
        match r.source.next with
        | (.error e, source) => (.error e, { r with source, output })
        | (.ok reply, source) =>
          ((r.session.answer item reply).1.map fun _ => none,
            ⟨(r.session.answer item reply).2, source, output⟩) := by
  cases hs : r.source.next with
  | mk reply source =>
    cases reply with
    | ok reply => exact turn_replied h hs options answered
    | error e =>
      obtain rfl := (Script.next_error hs).1
      let shown : RunState Script :=
        { r with output := r.output.add (Output.lineIf (!options.quiet) (item.view options.verbose)) }
      have hn : Script.source.next item shown.source = (.error .answersExhausted, source) := hs
      rw [turn_eq, exec_bind, exec_writeLineIf h]
      dsimp only
      rw [exec_bind, exec_reply?, hn]
      exact ⟨(consulted Script.source shown source).output, h, rfl⟩

theorem finish_scripted (h : r.output.room = none) (options : RunOptions) (answered : Nat) :
    ∃ q : RunState Script, (finish Script.source options answered).exec r =
        (.ok (.completed answered r.source.remaining), q) ∧
      q.session.store = r.session.store ∧
      q.session.progress.includes = r.session.progress.includes ∧ q.source = r.source := by
  let shown : RunState Script :=
    { r with output := r.output.add (Output.lineIf (!options.quiet) "==========") }
  have hroom : shown.output.room = none := h
  have hr : Script.source.remaining shown.source = r.source.remaining := rfl
  have hw : (writeLine "there are unused answers" : Run Script Unit) = writeLineIf true _ := rfl
  rw [finish_eq, exec_bind, exec_writeLineIf h]
  dsimp only
  rw [exec_bind, exec_get]
  dsimp only
  rw [hr]
  by_cases hl : 0 < r.source.remaining
  · simp only [hl, if_true]
    rw [hw, exec_bind, exec_writeLineIf hroom]
    exact ⟨_, rfl, rfl, rfl, rfl⟩
  · simp only [hl, if_false]
    exact ⟨_, rfl, rfl, rfl, rfl⟩

variable {fs : FileSystem} {patience : Nat}

/-- The rest of a run, after so many answers, leaves what the loop leaves that many answers on. -/
theorem rounds_eq (h : r.output.room = none) (options : RunOptions) (items answered : Nat) :
    (rounds fs patience Script.source options items answered r).map (fun q => q.2.aftermath q.1) =
      (Session.exchange fs patience items r.session r.source).map fun x =>
        { x.aftermath with
          outcome := x.ended.map fun _ =>
            .completed (answered + x.stored.length) x.script.remaining } := by
  induction items generalizing answered r with
  | zero => rfl
  | succ items ih =>
    unfold rounds Session.exchange
    cases hn : r.session.next fs patience with
    | none => rfl
    | some found =>
      obtain ⟨found, asked⟩ := found
      have hroom : ({ r with session := asked } : RunState Script).output.room = none := h
      rcases found with e | item
      · rfl
      · cases item with
        | none =>
          obtain ⟨q, hq, hstore, hincludes, hsource⟩ := finish_scripted hroom options answered
          have hrun : (finish Script.source options answered).run { r with session := asked } =
            (.ok (.completed answered r.source.remaining), q) := hq
          dsimp only
          rw [hrun]
          simp [RunState.aftermath, Exchange.aftermath, hstore, hincludes, hsource, Except.map]
        | some item =>
          obtain ⟨output, ho, ht⟩ := turn_scripted hroom options answered item
          have hrun : (turn Script.source options answered item).run { r with session := asked } = _ := ht
          dsimp only
          rw [hrun]
          dsimp only
          cases hs : r.source.next with
          | mk reply source =>
            rcases reply with e | reply
            · rfl
            · dsimp only
              cases ha : asked.answer item reply with
              | mk stored session =>
                rcases stored with e | value
                · rfl
                · have hnext := ih (r := ⟨session, source, output⟩) ho (answered + 1)
                  refine hnext.trans ?_
                  rw [Option.map_map]
                  refine congrArg (Option.map · _) (funext fun x => ?_)
                  simp only [Function.comp_apply, Exchange.aftermath, List.length_cons]
                  rw [Nat.add_right_comm, Nat.add_assoc]

end Run

namespace Session

variable {fs : FileSystem} {patience items k : Nat} {s t : Session} {script : Script} {x : Exchange}

theorem answer_error {item : Item} {reply : String} {e : Error}
    (h : s.answer item reply = (.error e, t)) : t = s := by
  unfold answer commit at h
  cases hw : item.write s.store (some (.str reply)) with
  | mk r store =>
    rw [hw] at h
    obtain ⟨rfl, rfl⟩ := Prod.mk.inj h
    obtain rfl := Item.write_error hw
    rfl

/-- The loop as turns: so many replies were stored, one after the other, and then `next` ended it, or the
reply to the last item was missing or refused. The session is as that call of `next` left it. -/
structure Exchanged (fs : FileSystem) (patience : Nat) (s : Session) (replies : List String)
    (answered : Nat) (x : Exchange) : Prop where
  turns : ∃ t found, Turns (fun _ => fs) (replies.getD · "") s answered t ∧
    t.next fs patience = some (found, x.asked) ∧
    match found with
    | .error e => x.ended = .error e
    | .ok none => x.ended = .ok ()
    | .ok (some item) =>
      match replies[answered]? with
      | none => x.ended = .error .answersExhausted
      | some reply => ∃ e, (x.asked.answer item reply).1 = .error e ∧ x.ended = .error e
  kept : x.session = x.asked

/-- One more round of the loop: it ends with `next`, for want of a reply or with a refused one, or a reply
is stored and the loop goes on. -/
inductive Round (fs : FileSystem) (patience items : Nat) (t : Session) (script : Script) : Exchange → Prop
  | failed {e : Error} {asked : Session} : t.next fs patience = some (.error e, asked) →
    Round fs patience items t script ⟨.error e, [], asked, asked, script⟩
  | complete {asked : Session} : t.next fs patience = some (.ok none, asked) →
    Round fs patience items t script ⟨.ok (), [], asked, asked, script⟩
  | unanswered {item : Item} {asked : Session} {e : Error} {rest : Script} :
    t.next fs patience = some (.ok (some item), asked) → script.next = (.error e, rest) →
    Round fs patience items t script ⟨.error e, [], asked, asked, rest⟩
  | refused {item : Item} {asked session : Session} {reply : String} {rest : Script} {e : Error} :
    t.next fs patience = some (.ok (some item), asked) → script.next = (.ok reply, rest) →
    asked.answer item reply = (.error e, session) →
    Round fs patience items t script ⟨.error e, [], asked, session, rest⟩
  | stored {item : Item} {asked session : Session} {reply : String} {rest : Script} {value : Value}
      {more : Exchange} :
    t.next fs patience = some (.ok (some item), asked) → script.next = (.ok reply, rest) →
    asked.answer item reply = (.ok value, session) →
    exchange fs patience items session rest = some more →
    Round fs patience items t script { more with stored := (item, value) :: more.stored }

theorem round_of_exchange (h : exchange fs patience (items + 1) t script = some x) :
    Round fs patience items t script x := by
  unfold exchange at h
  cases hn : t.next fs patience with
  | none => simp [hn] at h
  | some found =>
    obtain ⟨found, asked⟩ := found
    simp only [hn] at h
    match found with
    | .error e =>
      obtain rfl := Option.some.inj h
      exact .failed hn
    | .ok none =>
      obtain rfl := Option.some.inj h
      exact .complete hn
    | .ok (some item) =>
      dsimp only at h
      cases hs : script.next with
      | mk reply rest =>
        rw [hs] at h
        rcases reply with e | reply
        · obtain rfl := Option.some.inj h
          exact .unanswered hn hs
        · dsimp only at h
          cases ha : asked.answer item reply with
          | mk stored session =>
            rw [ha] at h
            rcases stored with e | value
            · obtain rfl := Option.some.inj h
              exact .refused hn hs ha
            · obtain ⟨more, hm, rfl⟩ := Option.map_eq_some_iff.mp h
              exact .stored hn hs ha hm

theorem reply_of_next {replies : List String} {rest : Script} {reply : String}
    (hr : script.replies = replies.drop k) (hs : script.next = (.ok reply, rest)) :
    replies[k]? = some reply ∧ rest.replies = replies.drop (k + 1) := by
  have hcons := Script.next_ok hs
  rw [hr] at hcons
  constructor
  · rw [← List.head?_drop, hcons, List.head?_cons]
  · rw [← List.tail_drop, hcons, List.tail_cons]

theorem exchanged_of_turns {replies : List String}
    (ht : Turns (fun _ => fs) (replies.getD · "") s k t) (hr : script.replies = replies.drop k)
    (h : exchange fs patience items t script = some x) :
    Exchanged fs patience s replies (k + x.stored.length) x := by
  induction items generalizing k t script x with
  | zero => cases h
  | succ items ih =>
    cases round_of_exchange h with
    | failed hn => exact ⟨⟨t, _, ht, hn, rfl⟩, rfl⟩
    | complete hn => exact ⟨⟨t, _, ht, hn, rfl⟩, rfl⟩
    | unanswered hn hs =>
      obtain ⟨rfl, hnone⟩ := Script.next_error hs
      have hk : replies[k]? = none := by
        rw [List.getElem?_eq_none_iff, ← List.drop_eq_nil_iff, ← hr, hnone]
      exact ⟨⟨t, _, ht, hn, by simp [hk]⟩, rfl⟩
    | refused hn hs ha =>
      obtain ⟨hk, -⟩ := reply_of_next hr hs
      exact ⟨⟨t, _, ht, hn, by simp [hk, ha]⟩, answer_error ha⟩
    | @stored item asked session reply rest value more hn hs ha hm =>
      obtain ⟨hk, hrest⟩ := reply_of_next hr hs
      have hget : replies.getD k "" = reply := by simp [hk]
      have hspec := ih (ht.turn hn (hget.symm ▸ ha)) hrest hm
      rw [Nat.add_right_comm, Nat.add_assoc] at hspec
      exact ⟨hspec.turns, hspec.kept⟩

/-- A run on scripted replies is the loop, whatever it displays: its outcome and what it leaves of the
settings, the includes and the script are those of the loop, and `answered` counts the replies that were
stored. However it ends, the session is as the last call of `next` left it. -/
theorem run_eq_exchange (s : Session) (fs : FileSystem) (patience : Nat) (script : Script)
    {options options' : RunOptions} {output output' : Output} (h : output.room = none)
    (h' : output'.room = none) :
    (s.run fs patience Script.source script options output).map (fun q => q.2.aftermath q.1) =
        (s.exchange fs patience patience script).map Exchange.aftermath ∧
      (s.run fs patience Script.source script options' output').map (fun q => q.2.aftermath q.1) =
        (s.run fs patience Script.source script options output).map (fun q => q.2.aftermath q.1) ∧
      ∀ x, s.exchange fs patience patience script = some x →
        Exchanged fs patience s script.replies x.stored.length x := by
  have hrun {options : RunOptions} {output : Output} (h : output.room = none) :
      (s.run fs patience Script.source script options output).map (fun q => q.2.aftermath q.1) =
        (s.exchange fs patience patience script).map Exchange.aftermath := by
    have hrounds : (Run.rounds fs patience Script.source options patience 0 ⟨s, script, output⟩).map
        (fun q => q.2.aftermath q.1) = _ := Run.rounds_eq h options patience 0
    simp only [Nat.zero_add] at hrounds
    exact hrounds
  refine ⟨hrun h, (hrun h').trans (hrun h).symm, fun x hx => ?_⟩
  have hscript : script.replies = script.replies.drop 0 := rfl
  have hspec := exchanged_of_turns .none hscript hx
  rwa [Nat.zero_add] at hspec

/-- The survey when its second reply is missing: the first one is kept, and so is what `next` did since. -/
def unanswered : Exchange where
  ended := .error .answersExhausted
  stored := [(Conversation.surveyItem [1] "a", .str "x")]
  asked := Conversation.survey ⟨[("n", .int 2), ("a", .str "x")]⟩
  session := Conversation.survey ⟨[("n", .int 2), ("a", .str "x")]⟩
  script := ⟨[], {}, []⟩

theorem run_eq_exchange_unanswered :
    let s := Conversation.survey .empty
    let script := Script.ofLines ["answer: x".toList] {}
    (s.run ⟨[], []⟩ 3 Script.source script { verbose := true } .empty).map
        (fun q => q.2.aftermath q.1) = some unanswered.aftermath ∧
      (s.run ⟨[], []⟩ 3 Script.source script { quiet := true } .empty).map
        (fun q => q.2.aftermath q.1) = some unanswered.aftermath ∧
      Exchanged ⟨[], []⟩ 3 s ["x"] 1 unanswered := by
  intro s script
  have hfirst : s.next ⟨[], []⟩ 3 = some (.ok (some (Conversation.surveyItem [1] "a")),
      Conversation.survey ⟨[("n", .int 1)]⟩) := rfl
  have hreply : script.next = (.ok "x", ⟨[], {}, []⟩) := by cbv
  have hanswer : (Conversation.survey ⟨[("n", .int 1)]⟩).answer (Conversation.surveyItem [1] "a") "x" =
      (.ok (.str "x"), Conversation.survey ⟨[("n", .int 1), ("a", .str "x")]⟩) := rfl
  have hsecond : (Conversation.survey ⟨[("n", .int 1), ("a", .str "x")]⟩).next ⟨[], []⟩ 3 =
      some (.ok (some (Conversation.surveyItem [2] "b")),
        Conversation.survey ⟨[("n", .int 2), ("a", .str "x")]⟩) := rfl
  have hmissing : (⟨[], {}, []⟩ : Script).next = (.error .answersExhausted, ⟨[], {}, []⟩) := rfl
  have hloop : s.exchange ⟨[], []⟩ 3 3 script = some unanswered := by
    simp only [exchange, hfirst, hreply, hanswer, hsecond, hmissing]
    rfl
  have hreplies : script.replies = ["x"] := by cbv
  have hempty : Output.empty.room = none := rfl
  obtain ⟨hrun, hsame, hspec⟩ := @run_eq_exchange s ⟨[], []⟩ 3 script { verbose := true }
    { quiet := true } .empty .empty hempty hempty
  rw [hloop] at hrun
  rw [hreplies] at hspec
  exact ⟨hrun, hsame.trans hrun, hspec unanswered hloop⟩

end Session
end Interview
