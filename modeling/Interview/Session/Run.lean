import Interview.Answers.Source
import Interview.Item.View
import Interview.Session.Basic

/-! A whole run: each item is shown, a reply is taken from the source and stored, until nothing is left to
ask or the run is interrupted. -/

namespace Interview

/-- What was written, and how many more bytes there is room for. -/
structure Output where
  bytes : ByteArray
  room : Option Nat
  /-- What was written together with what the source of replies showed, in order. -/
  screen : ByteArray

namespace Output

def withRoom (room : Option Nat) : Output := ⟨.empty, room, .empty⟩

def empty : Output := withRoom none

def add (o : Output) (bytes : ByteArray) : Output :=
  { o with bytes := o.bytes ++ bytes, screen := o.screen ++ bytes }

/-- Writes as much of a text as there is room for; whether all of it was written. -/
def put (o : Output) (text : String) : Bool × Output :=
  let new := text.toUTF8
  match o.room with
  | none => (true, o.add new)
  | some room =>
    if new.size ≤ room then (true, { o.add new with room := some (room - new.size) })
    else (false, { o.add (new.extract 0 room) with room := some 0 })

def echo (o : Output) (cs : List Char) : Output :=
  { o with screen := o.screen ++ (String.ofList cs).toUTF8 }

end Output

structure RunOptions where
  verbose : Bool := false
  quiet : Bool := false

inductive RunOutcome where
  /-- Every item was answered; some replies may be left over. -/
  | completed (answered leftover : Nat)
  | aborted (answered : Nat)
deriving DecidableEq

def RunOutcome.text : RunOutcome → String
  | completed answered 0 => s!"Completed after {answered} answers"
  | completed answered leftover => s!"Completed after {answered} answers ({leftover} unused)"
  | aborted answered => s!"Aborted after {answered} answers"

structure RunState (σ : Type) where
  session : Session
  source : σ
  output : Output

abbrev Run (σ : Type) := ExceptT Error (StateM (RunState σ))

namespace Run

def writeLine (text : String) : Run σ Unit := do
  let r ← get
  let (fits, output) := r.output.put (text ++ "\n")
  set { r with output }
  unless fits do throw .outputFailed

def report (e : Event) : Run σ Unit := modify fun r => { r with session := r.session.report e }

/-- Uses the source of replies, whose failures are answers here. -/
def consult (src : AnswerSource σ) (use : σ → Except Error α × σ) : Run σ (Except Error α) := do
  let r ← get
  let (answer, source) := use r.source
  let shown := (src.written source).drop (src.written r.source).length
  set { r with source, output := r.output.echo shown }
  return answer

/-- The reply for an item, or nothing where it was interrupted. -/
def reply? (src : AnswerSource σ) (item : Item) : Run σ (Option String) := do
  match ← consult src (src.next item) with
  | .ok reply => return some reply
  | .error .interrupted => return none
  | .error e => throw e

/-- What follows an interrupt; a second one aborts. -/
def interruptChoice (src : AnswerSource σ) : Run σ InterruptChoice := do
  match ← consult src src.onInterrupt with
  | .ok choice => return choice
  | .error .interrupted => return .abort
  | .error e => throw e

def stop (src : AnswerSource σ) (item : Item) (answered : Nat) : Run σ RunOutcome := do
  let choice ← interruptChoice src
  if choice = .inspect then writeLine (← get).session.store.text
  writeLine "exiting prematurely"
  report (.interruptedAt item.place)
  return .aborted answered

def store (item : Item) (reply : String) : Run σ Unit := do
  let r ← get
  let (answer, session) := r.session.answer item reply
  set { r with session }
  match answer with
  | .ok _ => return ()
  | .error e => throw e

/-- One item from its view to its stored reply; an outcome if the run ends here. -/
def turn (src : AnswerSource σ) (options : RunOptions) (answered : Nat) (item : Item) :
    Run σ (Option RunOutcome) := do
  unless options.quiet do writeLine (item.view options.verbose)
  match ← reply? src item with
  | none => return some (← stop src item answered)
  | some reply =>
    if options.verbose && !options.quiet then writeLine ("answer: " ++ reply)
    store item reply
    return none

def finish (src : AnswerSource σ) (options : RunOptions) (answered : Nat) : Run σ RunOutcome := do
  unless options.quiet do writeLine "=========="
  let leftover := src.remaining (← get).source
  if 0 < leftover then
    writeLine "there are unused answers"
    report (.unusedAnswers leftover)
  return .completed answered leftover

def rounds (fs : FileSystem) (patience : Nat) (src : AnswerSource σ) (options : RunOptions) :
    Nat → Nat → RunState σ → Option (Except Error RunOutcome × RunState σ)
  | 0, _, _ => none
  | items + 1, answered, r =>
    match r.session.next fs patience with
    | none => none
    | some (.error e, session) => some (.error e, { r with session })
    | some (.ok none, session) => some ((finish src options answered).run { r with session })
    | some (.ok (some item), session) =>
      match (turn src options answered item).run { r with session } with
      | (.error e, r) => some (.error e, r)
      | (.ok (some outcome), r) => some (.ok outcome, r)
      | (.ok none, r) => rounds fs patience src options items (answered + 1) r

end Run

/-- Runs a session to its end. There is no answer only if that takes more than the caller's patience, in
items or in passes for one of them. -/
def Session.run (s : Session) (fs : FileSystem) (patience : Nat) (src : AnswerSource σ)
    (source : σ) (options : RunOptions) (output : Output) :
    Option (Except Error RunOutcome × RunState σ) :=
  Run.rounds fs patience src options patience 0 ⟨s, source, output⟩

end Interview
