import Interview.Answers.Console

/-! What the screen shows while a line is typed. The echo of each press keeps the screen at the line that the
editor holds, and a masked editor holds the same line without an echo. -/

namespace Interview

/-- A line of the screen from where typing starts: the cells before the cursor, the last one first, and the
cells from the cursor on. -/
structure Screen where
  before : List Char
  after : List Char

namespace Screen

def clear : Screen := ⟨[], []⟩

/-- Shows a character in one cell. A backspace moves left instead, unless the cursor is at the start. -/
def put (s : Screen) (c : Char) : Option Screen :=
  if c = '\x08' then
    match s.before with
    | [] => none
    | cell :: before => some ⟨before, cell :: s.after⟩
  else some ⟨c :: s.before, s.after.tail⟩

def replay (s : Screen) (text : List Char) : Option Screen := text.foldlM put s

/-- The line stands before the cursor, and nothing from the cursor on. -/
structure Shows (s : Screen) (line : List Char) : Prop where
  before : s.before.reverse = line
  after : ∀ cell ∈ s.after, cell = ' '

variable {s : Screen} {line : List Char} {c : Char}

theorem replay_append (s : Screen) (text more : List Char) :
    s.replay (text ++ more) = (s.replay text).bind (·.replay more) :=
  List.foldlM_append

theorem clear_shows : clear.Shows [] := ⟨rfl, by simp [clear]⟩

theorem Shows.put (h : s.Shows line) (hc : c ≠ '\x08') :
    ∃ t, s.replay [c] = some t ∧ t.Shows (line ++ [c]) := by
  refine ⟨⟨c :: s.before, s.after.tail⟩, by simp [replay, Screen.put, hc], ?_, ?_⟩
  · simp [h.before]
  · intro cell hcell
    exact h.after cell (List.mem_of_mem_tail hcell)

/-- Left, a blank and left again: the last cell is blank, and the cursor on it. -/
theorem Shows.erase (h : s.Shows (line ++ [c])) :
    ∃ t, s.replay LineEditor.eraseText = some t ∧ t.Shows line := by
  obtain ⟨before, after⟩ := s
  have hb : before = c :: line.reverse := by simpa using congrArg List.reverse h.before
  refine ⟨⟨line.reverse, ' ' :: after⟩, ?_, List.reverse_reverse line, ?_⟩
  · simp [replay, LineEditor.eraseText, Screen.put, hb]
  · simpa using h.after

end Screen

namespace KeyPress

structure Pushes (k : KeyPress) (c : Char) : Prop where
  pressed : k.released = false
  plain : k.control = false
  code : k.code = .char c

/-- What a press makes of a line: a character goes to its end, the backspace takes the last one. -/
def apply (line : List Char) (k : KeyPress) : List Char :=
  if k.released then line
  else
    match k.code with
    | .char c => if k.control then line else line ++ [c]
    | .backspace => line.dropLast
    | _ => line

/-- The characters with the Unicode category of control characters. -/
def IsControl (c : Char) : Prop := c.toNat < 0x20 ∨ 0x7F ≤ c.toNat ∧ c.toNat < 0xA0

instance : DecidablePred IsControl := fun c =>
  inferInstanceAs (Decidable (c.toNat < 0x20 ∨ 0x7F ≤ c.toNat ∧ c.toNat < 0xA0))

def Printable (k : KeyPress) : Prop := ∀ c, k.Pushes c → ¬ IsControl c

theorem Printable.ne_backspace {k : KeyPress} {c : Char} (h : k.Printable) (hk : k.Pushes c) : c ≠ '\x08' := by
  rintro rfl
  exact h _ hk (.inl (by decide))

end KeyPress

namespace LineEditor

variable {e e' : LineEditor} {k : KeyPress} {keys : List KeyPress} {text line : List Char}
  {texts : List (List Char)}

/-- What a press can do that does not end the line. -/
inductive Edit (e : LineEditor) (k : KeyPress) : List Char → LineEditor → Prop
  | ignored : k.apply e.line = e.line → Edit e k [] e
  | pushed {c : Char} : k.Pushes c → Edit e k (e.visible [c]) { e with reversed := c :: e.reversed }
  | popped {c : Char} {rest : List Char} : e.reversed = c :: rest → k.apply e.line = rest.reverse →
    Edit e k (e.visible eraseText) { e with reversed := rest }

theorem edit_of_feed (h : e.feed k = (.echo text, e')) : Edit e k text e' := by
  unfold feed at h
  split at h
  · next hr =>
    cases h
    exact .ignored (by simp [KeyPress.apply, hr])
  · next hr =>
    split at h
    · next hk => cases h
    · next hk =>
      split at h
      · next hn =>
        cases h
        exact .ignored (by simp [KeyPress.apply, hk, line, hn])
      · next c rest hl =>
        cases h
        exact .popped hl (by simp [KeyPress.apply, hr, hk, line, hl])
    · next c hk =>
      split at h
      · next hc =>
        have happly : k.apply e.line = e.line := by simp [KeyPress.apply, hk, hc]
        split at h
        · cases h
        · split at h
          · cases h
          · cases h
            exact .ignored happly
      · next hc =>
        cases h
        exact .pushed ⟨by simpa using hr, by simpa using hc, hk⟩
    · next hk =>
      cases h
      exact .ignored (by simp [KeyPress.apply, hk])

theorem Edit.line_eq (h : Edit e k text e') : e'.line = k.apply e.line := by
  cases h with
  | ignored happly => exact happly.symm
  | pushed hk => simp [KeyPress.apply, line, hk.pressed, hk.plain, hk.code]
  | popped _ happly => exact happly.symm

theorem Edit.masked_eq (h : Edit e k text e') : e'.masked = e.masked := by
  cases h <;> rfl

theorem Edit.shows (h : Edit e k text e') (he : e.masked = false) (hk : k.Printable) {s : Screen}
    (hs : s.Shows e.line) : ∃ t, s.replay text = some t ∧ t.Shows e'.line := by
  cases h with
  | ignored _ => exact ⟨s, rfl, hs⟩
  | pushed hpush =>
    simp only [visible, he, Bool.false_eq_true, if_false, line, List.reverse_cons]
    exact hs.put (hk.ne_backspace hpush)
  | popped hl _ =>
    rw [line, hl, List.reverse_cons] at hs
    simp only [visible, he, Bool.false_eq_true, if_false]
    exact hs.erase

/-- A mask hides the echo and changes nothing else. -/
theorem feed_hidden (reversed : List Char) (k : KeyPress) :
    feed ⟨reversed, true⟩ k =
      (match (feed ⟨reversed, false⟩ k).1 with
        | .echo _ => .echo []
        | step => step, ⟨(feed ⟨reversed, false⟩ k).2.reversed, true⟩) := by
  obtain ⟨code, control, released⟩ := k
  cases released with
  | true => rfl
  | false =>
    cases code with
    | enter => rfl
    | other => rfl
    | backspace => cases reversed <;> rfl
    | char c =>
      cases control with
      | false => rfl
      | true =>
        by_cases hc : c = 'c'
        · simp [feed, hc]
        · by_cases hd : c = 'd' ∧ reversed = [] <;> simp [feed, hc, hd]

/-- The echo of each press and the editor after them all, unless one of them ends the line. -/
def edits (e : LineEditor) : List KeyPress → Option (List (List Char) × LineEditor)
  | [] => some ([], e)
  | k :: keys =>
    match e.feed k with
    | (.echo text, e) => (e.edits keys).map fun (texts, e) => (text :: texts, e)
    | _ => none

theorem edits_cons (h : e.edits (k :: keys) = some (texts, e')) :
    ∃ text mid rest, e.feed k = (.echo text, mid) ∧ mid.edits keys = some (rest, e') ∧
      texts = text :: rest := by
  rw [edits] at h
  split at h
  · next text mid hfeed =>
    obtain ⟨⟨rest, last⟩, hrest, heq⟩ := Option.map_eq_some_iff.mp h
    obtain ⟨rfl, rfl⟩ := Prod.mk.inj heq
    exact ⟨text, mid, rest, hfeed, hrest, rfl⟩
  · cases h

theorem line_eq_of_edits (h : e.edits keys = some (texts, e')) :
    e'.line = keys.foldl KeyPress.apply e.line := by
  induction keys generalizing e texts with
  | nil =>
    obtain ⟨-, rfl⟩ := Prod.mk.inj (Option.some.inj h)
    rfl
  | cons k keys ih =>
    obtain ⟨text, mid, rest, hfeed, hrest, -⟩ := edits_cons h
    rw [ih hrest, (edit_of_feed hfeed).line_eq, List.foldl_cons]

theorem shows_of_edits (h : e.edits keys = some (texts, e')) (he : e.masked = false)
    (hkeys : ∀ k ∈ keys, k.Printable) {s : Screen} (hs : s.Shows e.line) :
    ∃ t, s.replay texts.flatten = some t ∧ t.Shows e'.line := by
  induction keys generalizing e texts s with
  | nil =>
    obtain ⟨rfl, rfl⟩ := Prod.mk.inj (Option.some.inj h)
    exact ⟨s, rfl, hs⟩
  | cons k keys ih =>
    obtain ⟨text, mid, rest, hfeed, hrest, rfl⟩ := edits_cons h
    obtain ⟨hk, hkeys⟩ := List.forall_mem_cons.mp hkeys
    have hedit := edit_of_feed hfeed
    obtain ⟨between, hbetween, hshows⟩ := hedit.shows he hk hs
    obtain ⟨t, ht, hline⟩ := ih hrest (hedit.masked_eq.trans he) hkeys hshows
    refine ⟨t, ?_, hline⟩
    rw [List.flatten_cons, Screen.replay_append, hbetween, Option.bind_some, ht]

theorem edits_hidden {reversed : List Char} (h : edits ⟨reversed, false⟩ keys = some (texts, e)) :
    edits ⟨reversed, true⟩ keys = some (texts.map fun _ => [], ⟨e.reversed, true⟩) := by
  induction keys generalizing reversed texts with
  | nil =>
    obtain ⟨rfl, rfl⟩ := Prod.mk.inj (Option.some.inj h)
    rfl
  | cons k keys ih =>
    obtain ⟨text, ⟨middle, masked⟩, rest, hfeed, hrest, rfl⟩ := edits_cons h
    obtain rfl : masked = false := (edit_of_feed hfeed).masked_eq
    have hhidden : feed ⟨reversed, true⟩ k = (.echo [], ⟨middle, true⟩) := by rw [feed_hidden, hfeed]
    rw [edits, hhidden]
    dsimp only
    rw [ih hrest, Option.map_some, List.map_cons]

end LineEditor

namespace Console

/-- While a line is read, the echoes are printed one after the other. -/
theorem edit_of_edits {e e' : LineEditor} {keys : List KeyPress} {texts : List (List Char)}
    (h : e.edits keys = some (texts, e')) (rest : List TerminalEvent) :
    edit e (keys.map .key ++ rest) =
      { edit e' rest with printed := texts.flatten ++ (edit e' rest).printed } := by
  induction keys generalizing e texts with
  | nil =>
    obtain ⟨rfl, rfl⟩ := Prod.mk.inj (Option.some.inj h)
    rfl
  | cons k keys ih =>
    obtain ⟨text, mid, more, hfeed, hmore, rfl⟩ := LineEditor.edits_cons h
    simp only [List.map_cons, List.cons_append, edit, hfeed, ih hmore, List.flatten_cons,
      List.append_assoc]

end Console

namespace LineEditor

variable {e : LineEditor} {keys : List KeyPress} {texts : List (List Char)}

/-- As long as no press ends the line and no control character is typed, the line is what the characters and
the backspaces make of it, and the echo, which is all that is printed meanwhile, keeps the screen at it and
the cursor at its end, never left of its start. A masked editor goes on as well, holds the same line and has
no echo. -/
theorem screen_shows_line (h : (start false).edits keys = some (texts, e))
    (hkeys : ∀ k ∈ keys, k.Printable) :
    e.line = keys.foldl KeyPress.apply [] ∧
      (∃ s, Screen.clear.replay texts.flatten = some s ∧ s.Shows e.line) ∧
      (∀ rest, Console.edit (start false) (keys.map .key ++ rest) =
        { Console.edit e rest with printed := texts.flatten ++ (Console.edit e rest).printed }) ∧
      ∃ hidden masked, (start true).edits keys = some (hidden, masked) ∧ masked.line = e.line ∧
        ∀ text ∈ hidden, text = [] := by
  refine ⟨line_eq_of_edits h, shows_of_edits h rfl hkeys Screen.clear_shows, Console.edit_of_edits h,
    _, _, edits_hidden h, rfl, ?_⟩
  simp

/-- Some presses: the backspace at the start of the line, two characters, one of which is released and taken
back, and Ctrl-D within the line. -/
def presses : List KeyPress :=
  [⟨.backspace, false, false⟩, ⟨.char 'a', false, false⟩, ⟨.char 'b', false, false⟩,
    ⟨.char 'b', false, true⟩, ⟨.backspace, false, false⟩, ⟨.char 'd', true, false⟩]

theorem screen_shows_line_of_presses :
    ∃ texts e s, (start false).edits presses = some (texts, e) ∧ (∀ k ∈ presses, k.Printable) ∧
      e.line = ['a'] ∧ Screen.clear.replay texts.flatten = some s ∧ s.Shows ['a'] ∧
      (Console.edit (start false) (presses.map .key ++ [.key ⟨.enter, false, false⟩])).printed =
        texts.flatten ++ Console.lineEnd := by
  have hgoes : (start false).edits presses =
      some ([[], ['a'], ['b'], [], eraseText, []], ⟨['a'], false⟩) := rfl
  have hprintable : ∀ k ∈ presses, k.Printable := by
    intro k hk c hc
    have hcode : k.code ∈ presses.map (·.code) := List.mem_map_of_mem hk
    rw [hc.code] at hcode
    have hmem : c ∈ ['a', 'b', 'd'] := by simpa [presses] using hcode
    have hall : ∀ c ∈ ['a', 'b', 'd'], ¬ KeyPress.IsControl c := by simp [KeyPress.IsControl]
    exact hall c hmem
  obtain ⟨-, ⟨s, hs, hshows⟩, hprints, -⟩ := screen_shows_line hgoes hprintable
  refine ⟨_, _, s, hgoes, hprintable, rfl, hs, hshows, ?_⟩
  rw [hprints]
  rfl

end LineEditor

end Interview
