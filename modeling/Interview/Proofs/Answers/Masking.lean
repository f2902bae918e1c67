import Interview.Answers.Console
import Interview.Proofs.Session.Rounds

/-! Hidden items at the terminal. Nothing that is typed for one is echoed, so the terminal shows the same
whatever the reply is; only a run that shows replies, too, gives it away. -/

namespace Interview

namespace KeyPress

structure Types (k : KeyPress) : Prop where
  pressed : k.released = false
  edits : k.code = .backspace ∨ k.control = false ∧ ∃ c, k.code = .char c

structure Submits (k : KeyPress) : Prop where
  pressed : k.released = false
  enter : k.code = .enter

/-- What a press makes of a line, of which the last character stands first. -/
def edit (reversed : List Char) (k : KeyPress) : List Char :=
  match k.code with
  | .char c => c :: reversed
  | .backspace => reversed.tail
  | _ => reversed

end KeyPress

namespace LineEditor

theorem feed_masked {k : KeyPress} (h : k.Types) (reversed : List Char) :
    feed ⟨reversed, true⟩ k = (.echo [], ⟨k.edit reversed, true⟩) := by
  obtain ⟨hp, hb | ⟨hc, c, hk⟩⟩ := h
  · cases reversed <;> simp [feed, KeyPress.edit, visible, hp, hb]
  · simp [feed, KeyPress.edit, visible, hp, hc, hk]

end LineEditor

namespace Console

def typed (keys : List KeyPress) : String :=
  String.ofList (Text.trim (keys.foldl KeyPress.edit []).reverse)

theorem edit_masked {keys : List KeyPress} (h : ∀ k ∈ keys, k.Types) {enter : KeyPress}
    (he : enter.Submits) (reversed : List Char) (rest : List TerminalEvent) :
    edit ⟨reversed, true⟩ (keys.map .key ++ .key enter :: rest) =
      ⟨.ok (String.ofList (Text.trim (keys.foldl KeyPress.edit reversed).reverse)), lineEnd, rest⟩ := by
  induction keys generalizing reversed with
  | nil =>
    have hf : LineEditor.feed ⟨reversed, true⟩ enter = (.submit, ⟨reversed, true⟩) := by
      simp [LineEditor.feed, he.pressed, he.enter]
    simp [edit, hf, LineEditor.line]
  | cons k keys ih =>
    obtain ⟨hk, hkeys⟩ := List.forall_mem_cons.mp h
    have hrest := ih hkeys (k.edit reversed)
    simp only [List.map_cons, List.cons_append, edit, LineEditor.feed_masked hk, hrest]
    rfl

/-- Typing a line for a hidden item: what was typed is the reply, and the terminal shows the prompt and the
end of the line. -/
theorem next_hidden {item : Item} (hh : item.isHidden = true) {c : Console} {keys : List KeyPress}
    (h : ∀ k ∈ keys, k.Types) {enter : KeyPress} (he : enter.Submits) {rest : List TerminalEvent}
    (hc : c.events = keys.map .key ++ .key enter :: rest) :
    next item c = (.ok (typed keys), ⟨rest, c.written ++ ("answer: ".toList ++ lineEnd)⟩) := by
  have hp : prompt item = "answer: " := by simp [prompt, hh]
  rw [next, ask, hp, hh, LineEditor.start, hc, edit_masked h he, List.append_assoc]
  rfl

end Console

/-- What is seen while an item is answered: what the run writes, what the terminal is sent, and both
together as they come on the screen. -/
structure Seen where
  output : ByteArray
  terminal : List Char
  screen : ByteArray

/-- What is seen from one moment of a run to a later one. -/
structure RunState.Shows (r q : RunState Console) (seen : Seen) : Prop where
  output : q.output.bytes = r.output.bytes ++ seen.output
  terminal : q.source.written = r.source.written ++ seen.terminal
  screen : q.output.screen = r.output.screen ++ seen.screen

namespace Run

def hiddenTurn (item : Item) (options : RunOptions) (reply : String) : Seen :=
  let view := Output.lineIf (!options.quiet) (item.view options.verbose)
  let told := Output.lineIf (options.verbose && !options.quiet) ("answer: " ++ reply)
  let prompted := "answer: ".toList ++ Console.lineEnd
  ⟨view ++ told, prompted, view ++ (String.ofList prompted).toUTF8 ++ told⟩

/-- What is seen of a turn that ends well does not depend on what the terminal and the output showed before. -/
theorem turn_hidden {item : Item} (hh : item.isHidden = true) {options : RunOptions} {answered : Nat}
    {r q : RunState Console} {keys : List KeyPress} (h : ∀ k ∈ keys, k.Types) {enter : KeyPress}
    (he : enter.Submits) {rest : List TerminalEvent}
    (hc : r.source.events = keys.map .key ++ .key enter :: rest)
    (ha : (turn Console.source options answered item).exec r = (.ok none, q)) :
    r.Shows q (hiddenTurn item options (Console.typed keys)) := by
  obtain ⟨reply, value, hnext, -, hbytes, hscreen⟩ := turn_ok ha
  have hread : Console.source.next item r.source = _ := Console.next_hidden hh h he hc
  rw [hread] at hnext
  obtain ⟨hreply, hsource⟩ := Prod.mk.inj hnext
  obtain rfl := Except.ok.inj hreply
  have hw : q.source.written = r.source.written ++ ("answer: ".toList ++ Console.lineEnd) := by
    rw [← hsource]
  have hdrop : (Console.source.written q.source).drop (Console.source.written r.source).length =
      "answer: ".toList ++ Console.lineEnd := by
    show q.source.written.drop r.source.written.length = _
    rw [hw, List.drop_left]
  rw [hdrop] at hscreen
  refine ⟨?_, hw, ?_⟩
  · simp only [hbytes, hiddenTurn, ByteArray.append_assoc]
  · simp only [hscreen, hiddenTurn, ByteArray.append_assoc]

variable {item : Item} {options : RunOptions} {reply reply' : String}

theorem line_answer_inj :
    Output.line ("answer: " ++ reply) = Output.line ("answer: " ++ reply') ↔ reply = reply' := by
  simp [Output.line, String.toByteArray_inj, String.append_assoc]

theorem lineIf_answer_inj {shown : Bool} :
    Output.lineIf shown ("answer: " ++ reply) = Output.lineIf shown ("answer: " ++ reply') ↔
      shown = false ∨ reply = reply' := by
  cases shown <;> simp [Output.lineIf, line_answer_inj]

theorem output_hiddenTurn_inj :
    (hiddenTurn item options reply).output = (hiddenTurn item options reply').output ↔
      (options.verbose && !options.quiet) = false ∨ reply = reply' := by
  simp only [hiddenTurn, ByteArray.append_right_inj, lineIf_answer_inj]

theorem screen_hiddenTurn_inj :
    (hiddenTurn item options reply).screen = (hiddenTurn item options reply').screen ↔
      (options.verbose && !options.quiet) = false ∨ reply = reply' := by
  simp only [hiddenTurn, ByteArray.append_right_inj, lineIf_answer_inj]

/-- Two turns with a hidden item, each with a line that is typed and accepted: the terminal is sent the same
in both, and all that is seen is the same exactly if the run shows no replies or the replies are equal. -/
theorem hidden_reply_seen_iff (hh : item.isHidden = true) {answered answered' : Nat}
    {r r' q q' : RunState Console} {keys keys' : List KeyPress} {enter enter' : KeyPress}
    {rest rest' : List TerminalEvent} (h : ∀ k ∈ keys, k.Types) (h' : ∀ k ∈ keys', k.Types)
    (he : enter.Submits) (he' : enter'.Submits)
    (hc : r.source.events = keys.map .key ++ .key enter :: rest)
    (hc' : r'.source.events = keys'.map .key ++ .key enter' :: rest')
    (ha : (turn Console.source options answered item).exec r = (.ok none, q))
    (ha' : (turn Console.source options answered' item).exec r' = (.ok none, q')) :
    ∃ seen seen' : Seen, r.Shows q seen ∧ r'.Shows q' seen' ∧ seen.terminal = seen'.terminal ∧
      (seen.output = seen'.output ↔
        (options.verbose && !options.quiet) = false ∨ Console.typed keys = Console.typed keys') ∧
      (seen.screen = seen'.screen ↔
        (options.verbose && !options.quiet) = false ∨ Console.typed keys = Console.typed keys') :=
  ⟨_, _, turn_hidden hh h he hc ha, turn_hidden hh h' he' hc' ha', rfl, output_hiddenTurn_inj,
    screen_hiddenTurn_inj⟩

theorem turn_of_accepted (hh : item.isHidden = true) {answered : Nat} {r : RunState Console}
    (hroom : r.output.room = none) {keys : List KeyPress} (h : ∀ k ∈ keys, k.Types) {enter : KeyPress}
    (he : enter.Submits) {rest : List TerminalEvent}
    (hc : r.source.events = keys.map .key ++ .key enter :: rest) {value : Value} {session : Session}
    (ha : r.session.answer item (Console.typed keys) = (.ok value, session)) :
    ∃ q, (turn Console.source options answered item).exec r = (.ok none, q) := by
  have hn : Console.source.next item r.source = _ := Console.next_hidden hh h he hc
  obtain ⟨output, -, ht⟩ := turn_replied hroom hn options answered
  rw [ha] at ht
  exact ⟨_, ht⟩

def secret : Item where
  place := [0]
  kind := .question
  key := "pw"
  node := { kind := some "question", key := some "pw", hidden := true }
  range := none
  pattern := none

def asking (keys : List KeyPress) : RunState Console where
  session := ⟨[secret.node], [], .none, 0, false, ⟨.empty, .empty, []⟩⟩
  source := ⟨keys.map .key ++ [.key ⟨.enter, false, false⟩], []⟩
  output := .empty

def press (c : Char) : KeyPress := ⟨.char c, false, false⟩

theorem types_press (c : Char) : ∀ k ∈ [press c], k.Types :=
  List.forall_mem_singleton.mpr ⟨rfl, .inr ⟨rfl, c, rfl⟩⟩

theorem submits_enter : (⟨.enter, false, false⟩ : KeyPress).Submits := ⟨rfl, rfl⟩

theorem turn_secret (options : RunOptions) (c : Char) :
    ∃ q, (turn Console.source options 0 secret).exec (asking [press c]) = (.ok none, q) := by
  have ha : (asking [press c]).session.answer secret (Console.typed [press c]) =
      (.ok (.str (Console.typed [press c])), _) := rfl
  exact turn_of_accepted rfl rfl (types_press c) submits_enter rfl ha

theorem hidden_reply_seen_unless_shown :
    ∃ q q' seen seen',
      (turn Console.source {} 0 secret).exec (asking [press 's']) = (.ok none, q) ∧
      (turn Console.source {} 0 secret).exec (asking [press 't']) = (.ok none, q') ∧
      (asking [press 's']).Shows q seen ∧ (asking [press 't']).Shows q' seen' ∧
      seen.screen = seen'.screen := by
  obtain ⟨q, hq⟩ := turn_secret {} 's'
  obtain ⟨q', hq'⟩ := turn_secret {} 't'
  have hh : secret.isHidden = true := rfl
  obtain ⟨seen, seen', hs, hs', -, -, hscreen⟩ := hidden_reply_seen_iff hh (types_press 's')
    (types_press 't') submits_enter submits_enter rfl rfl hq hq'
  exact ⟨q, q', seen, seen', hq, hq', hs, hs', hscreen.mpr (.inl rfl)⟩

theorem hidden_reply_shown :
    ∃ q q', (turn Console.source { verbose := true } 0 secret).exec (asking [press 's']) = (.ok none, q) ∧
      (turn Console.source { verbose := true } 0 secret).exec (asking [press 't']) = (.ok none, q') ∧
      q.output.bytes ≠ q'.output.bytes ∧ q.output.screen ≠ q'.output.screen := by
  obtain ⟨q, hq⟩ := turn_secret { verbose := true } 's'
  obtain ⟨q', hq'⟩ := turn_secret { verbose := true } 't'
  have hs := turn_hidden rfl (types_press 's') submits_enter rfl hq
  have hs' := turn_hidden rfl (types_press 't') submits_enter rfl hq'
  have hne : ¬Console.typed [press 's'] = Console.typed [press 't'] := by decide
  refine ⟨q, q', hq, hq', fun hsame => hne ?_, fun hsame => hne ?_⟩
  · rw [hs.output, hs'.output] at hsame
    have hseen := output_hiddenTurn_inj.mp ((ByteArray.append_right_inj _).mp hsame)
    exact hseen.resolve_left Bool.noConfusion
  · rw [hs.screen, hs'.screen] at hsame
    have hseen := screen_hiddenTurn_inj.mp ((ByteArray.append_right_inj _).mp hsame)
    exact hseen.resolve_left Bool.noConfusion

end Run

end Interview
