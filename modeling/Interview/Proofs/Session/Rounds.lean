import Interview.Proofs.Outcome
import Interview.Session.Run

/-! Runs carried out step by step: what each step answers, and what it leaves of the session, the source of
replies and the output. Later modules take a turn apart by these equations alone. -/

namespace Interview

namespace Output

def line (text : String) : ByteArray := (text ++ "\n").toUTF8

def lineIf (shown : Bool) (text : String) : ByteArray := if shown then line text else .empty

theorem add_empty (o : Output) : o.add .empty = o := by simp [add]

theorem put_of_unlimited {o : Output} (h : o.room = none) (text : String) :
    o.put text = (true, o.add text.toUTF8) := by
  simp [put, h]

theorem put_true {o after : Output} {text : String} (h : o.put text = (true, after)) :
    ∃ room, after = { o.add text.toUTF8 with room } := by
  unfold put at h
  dsimp only at h
  split at h
  · exact ⟨(o.add text.toUTF8).room, (Prod.mk.inj h).2.symm⟩
  · split at h
    · exact ⟨_, (Prod.mk.inj h).2.symm⟩
    · cases (Prod.mk.inj h).1

end Output

namespace Run

variable {σ α β : Type}

def exec (w : Run σ α) (r : RunState σ) : Except Error α × RunState σ := w.run r

theorem exec_bind (w : Run σ α) (f : α → Run σ β) (r : RunState σ) :
    (w >>= f).exec r =
      match w.exec r with
      | (.ok a, q) => (f a).exec q
      | (.error e, q) => (.error e, q) := by
  show StateT.run (ExceptT.run (w >>= f)) r = _
  rw [ExceptT.run_bind, StateT.run_bind]
  cases h : w.exec r with
  | mk a q =>
    have hr : StateT.run (ExceptT.run w) r = (a, q) := h
    rw [hr]
    cases a <;> rfl

theorem exec_bind_ok {w : Run σ α} {f : α → Run σ β} {r q : RunState σ} {b : β}
    (h : (w >>= f).exec r = (.ok b, q)) :
    ∃ a mid, w.exec r = (.ok a, mid) ∧ (f a).exec mid = (.ok b, q) := by
  rw [exec_bind] at h
  split at h
  · next a mid hw => exact ⟨a, mid, hw, h⟩
  · cases (Prod.mk.inj h).1

@[simp] theorem exec_pure (a : α) (r : RunState σ) : (pure a : Run σ α).exec r = (.ok a, r) := rfl

@[simp] theorem exec_throw (e : Error) (r : RunState σ) :
    (throw e : Run σ α).exec r = (.error e, r) := rfl

@[simp] theorem exec_get (r : RunState σ) : (get : Run σ (RunState σ)).exec r = (.ok r, r) := rfl

@[simp] theorem exec_set (q r : RunState σ) : (set q : Run σ PUnit).exec r = (.ok (), q) := rfl

@[simp] theorem exec_report (e : Event) (r : RunState σ) :
    (report e).exec r = (.ok (), { r with session := r.session.report e }) := rfl

theorem exec_writeLine (text : String) (r : RunState σ) :
    (writeLine text).exec r =
      match r.output.put (text ++ "\n") with
      | (true, output) => (.ok (), { r with output })
      | (false, output) => (.error .outputFailed, { r with output }) := by
  simp only [writeLine, exec_bind, exec_get]
  cases hp : r.output.put (text ++ "\n") with
  | mk fits output => cases fits <;> simp

/-- What was asked of the source of replies is done, and what it showed for that is on the screen. -/
def consulted (src : AnswerSource σ) (r : RunState σ) (source : σ) : RunState σ :=
  { r with source, output := r.output.echo ((src.written source).drop (src.written r.source).length) }

theorem exec_consult (src : AnswerSource σ) (use : σ → Except Error α × σ) (r : RunState σ) :
    (consult src use).exec r = (.ok (use r.source).1, consulted src r (use r.source).2) := by
  simp only [consult, exec_bind, exec_get]
  simp [consulted]

theorem exec_reply? (src : AnswerSource σ) (item : Item) (r : RunState σ) :
    (reply? src item).exec r =
      (match (src.next item r.source).1 with
        | .ok reply => .ok (some reply)
        | .error .interrupted => .ok none
        | .error e => .error e,
        consulted src r (src.next item r.source).2) := by
  rw [reply?, exec_bind, exec_consult]
  cases (src.next item r.source).1 with
  | ok reply => rfl
  | error e => cases e <;> rfl

theorem exec_store (item : Item) (reply : String) (r : RunState σ) :
    (store item reply).exec r =
      ((r.session.answer item reply).1.map fun _ => (),
        { r with session := (r.session.answer item reply).2 }) := by
  simp only [store, exec_bind, exec_get]
  cases r.session.answer item reply with
  | mk answer session => cases answer <;> simp [Except.map]

def writeLineIf (shown : Bool) (text : String) : Run σ Unit :=
  if shown then writeLine text else pure ()

theorem exec_writeLineIf {r : RunState σ} (h : r.output.room = none) (shown : Bool) (text : String) :
    (writeLineIf shown text).exec r =
      (.ok (), { r with output := r.output.add (Output.lineIf shown text) }) := by
  cases shown with
  | false =>
    have he := r.output.add_empty
    simp [writeLineIf, Output.lineIf, he]
  | true =>
    show (writeLine text).exec r = _
    rw [exec_writeLine, Output.put_of_unlimited h]
    rfl

theorem writeLineIf_ok {r q : RunState σ} {shown : Bool} {text : String}
    (h : (writeLineIf shown text).exec r = (.ok (), q)) :
    ∃ room, q = { r with output := { r.output.add (Output.lineIf shown text) with room } } := by
  cases shown with
  | false =>
    obtain rfl : r = q := (Prod.mk.inj h).2
    exact ⟨r.output.room, by simp [Output.lineIf, Output.add]⟩
  | true =>
    have hw : (writeLine text).exec r = (.ok (), q) := h
    rw [exec_writeLine] at hw
    split at hw
    · next output hp =>
      obtain ⟨room, rfl⟩ := Output.put_true hp
      exact ⟨room, (Prod.mk.inj hw).2.symm⟩
    · cases (Prod.mk.inj hw).1

/-- A turn: the item is shown, unless nothing is; a reply is shown only where more is than that. -/
theorem turn_eq (src : AnswerSource σ) (options : RunOptions) (answered : Nat) (item : Item) :
    turn src options answered item = (do
      writeLineIf (!options.quiet) (item.view options.verbose)
      match ← reply? src item with
      | none => return some (← stop src item answered)
      | some reply =>
        writeLineIf (options.verbose && !options.quiet) ("answer: " ++ reply)
        store item reply
        return none) := by
  unfold turn writeLineIf
  cases options.quiet <;> cases options.verbose <;> rfl

/-- A turn that ends well took a reply and stored it. The run wrote the item and the reply where they are
shown; between them on the screen stands what the source showed. -/
theorem turn_ok {src : AnswerSource σ} {options : RunOptions} {answered : Nat} {item : Item}
    {r q : RunState σ} (h : (turn src options answered item).exec r = (.ok none, q)) :
    ∃ reply value, (src.next item r.source) = (.ok reply, q.source) ∧
      r.session.answer item reply = (.ok value, q.session) ∧
      q.output.bytes = r.output.bytes ++ Output.lineIf (!options.quiet) (item.view options.verbose) ++
        Output.lineIf (options.verbose && !options.quiet) ("answer: " ++ reply) ∧
      q.output.screen = r.output.screen ++ Output.lineIf (!options.quiet) (item.view options.verbose) ++
        (String.ofList ((src.written q.source).drop (src.written r.source).length)).toUTF8 ++
        Output.lineIf (options.verbose && !options.quiet) ("answer: " ++ reply) := by
  rw [turn_eq] at h
  obtain ⟨_, shown, hshow, h⟩ := exec_bind_ok h
  obtain ⟨room, rfl⟩ := writeLineIf_ok hshow
  obtain ⟨reply, heard, hreply, h⟩ := exec_bind_ok h
  rw [exec_reply?] at hreply
  dsimp only at hreply
  cases hn : src.next item r.source with
  | mk given source =>
    rw [hn] at hreply
    obtain ⟨hr, rfl⟩ := Prod.mk.inj hreply
    rcases given with e | given
    · cases e with
      | interrupted =>
        -- an interrupt leads to an outcome of the run
        obtain rfl := Except.ok.inj hr
        obtain ⟨_, stopped, -, h⟩ := exec_bind_ok h
        cases Except.ok.inj (Prod.mk.inj h).1
      | _ => cases hr
    · obtain rfl := Except.ok.inj hr
      dsimp only at h
      obtain ⟨_, told, htell, h⟩ := exec_bind_ok h
      obtain ⟨room', rfl⟩ := writeLineIf_ok htell
      obtain ⟨_, stored, hstore, h⟩ := exec_bind_ok h
      obtain rfl : stored = q := (Prod.mk.inj h).2
      rw [exec_store] at hstore
      obtain ⟨ha, rfl⟩ := Prod.mk.inj hstore
      obtain ⟨value, hv, -⟩ := map_eq_ok.mp ha
      refine ⟨given, value, rfl, Prod.ext hv rfl, ?_, ?_⟩
      · simp [Output.add, Output.echo, consulted]
      · simp [Output.add, Output.echo, consulted]

theorem turn_replied {src : AnswerSource σ} {item : Item} {r : RunState σ} (h : r.output.room = none)
    {reply : String} {source : σ} (hn : src.next item r.source = (.ok reply, source))
    (options : RunOptions) (answered : Nat) :
    ∃ output : Output, output.room = none ∧
      (turn src options answered item).exec r =
        ((r.session.answer item reply).1.map fun _ => none,
          ⟨(r.session.answer item reply).2, source, output⟩) := by
  let shown : RunState σ :=
    { r with output := r.output.add (Output.lineIf (!options.quiet) (item.view options.verbose)) }
  have hs : src.next item shown.source = (.ok reply, source) := hn
  have hroom : (consulted src shown source).output.room = none := h
  rw [turn_eq, exec_bind, exec_writeLineIf h]
  dsimp only
  rw [exec_bind, exec_reply?, hs]
  dsimp only
  rw [exec_bind, exec_writeLineIf hroom]
  dsimp only
  rw [exec_bind, exec_store]
  refine ⟨(consulted src shown source).output.add
    (Output.lineIf (options.verbose && !options.quiet) ("answer: " ++ reply)), hroom, ?_⟩
  dsimp only [consulted, shown]
  cases r.session.answer item reply with
  | mk stored session => cases stored <;> rfl

theorem finish_eq (src : AnswerSource σ) (options : RunOptions) (answered : Nat) :
    finish src options answered = (do
      writeLineIf (!options.quiet) "=========="
      let leftover := src.remaining (← get).source
      if 0 < leftover then
        writeLine "there are unused answers"
        report (.unusedAnswers leftover)
      return .completed answered leftover) := by
  unfold finish writeLineIf
  cases options.quiet <;> rfl

end Run
end Interview
