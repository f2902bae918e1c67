import Interview.Configuration.Load
import Mathlib.Data.List.Basic

/-! What files and environment variables say of the options of the tool, and what it comes to when each layer
is put over those before it: for every option the last that is said of it. Only an answers section that is
written as a list does not take part in this, as what is put over it replaces the whole. -/

namespace Interview.Configuration

def last? {α β : Type} (f : α → Option β) (l : List α) : Option β := l.reverse.findSome? f

section Last

variable {α β γ : Type} (f : α → Option β)

@[simp] theorem last?_nil : last? f [] = none := rfl

theorem last?_append (l m : List α) : last? f (l ++ m) = (last? f m <|> last? f l) := by
  simp [last?, List.findSome?_append]

@[simp] theorem last?_singleton (a : α) : last? f [a] = f a := by
  cases h : f a <;> simp [last?, h]

theorem last?_cons (a : α) (l : List α) : last? f (a :: l) = (last? f l <|> f a) := by
  rw [← List.singleton_append, last?_append, last?_singleton]

theorem last?_map (g : γ → α) (l : List γ) : last? f (l.map g) = last? (fun c => f (g c)) l := by
  simp [last?, ← List.map_reverse, List.findSome?_map, Function.comp_def]

theorem last?_filterMap (g : γ → Option α) (l : List γ) :
    last? f (l.filterMap g) = last? (fun c => (g c).bind f) l := by
  induction l with
  | nil => rfl
  | cons c l ih => cases hc : g c <;> simp [last?_cons, hc, ih]

theorem last?_flatten (l : List (List α)) : last? f l.flatten = last? (last? f) l := by
  induction l with
  | nil => rfl
  | cons first rest ih => rw [List.flatten_cons, last?_append, ih, last?_cons]

end Last

/-- How an option is set: by an entry of a file, and by an environment variable. -/
structure Spelling (α : Type) where
  inFile : String × Raw → Option α
  inEnvironment : String × String → Option α

def Spelling.value? {α : Type} (s : Spelling α) (files : List (List (String × Raw)))
    (environment : Environment) : Option α :=
  last? s.inEnvironment environment <|> last? (last? s.inFile) files

def under {α β : Type} (name : String) (read : α → Option β) (e : String × α) : Option β :=
  if e.1 = name then read e.2 else none

/-- A section on answers, as a table or as the list of its values. -/
def section? : Raw → Option AnswerOptions
  | .object entries =>
    some (.named (last? (under "prefix" string?) entries) (last? (under "separator" string?) entries))
  | .list (.str answer :: .str separator :: more) => some (.listed answer separator !more.isEmpty)
  | _ => none

def entrySection? (e : String × Raw) : Option AnswerOptions := under "answers" section? e

def variableSection? (v : String × String) : Option AnswerOptions :=
  (under "QUESTLINE__ANSWERS__PREFIX" some v).map (fun text => .named (some text) none) <|>
    (under "QUESTLINE__ANSWERS__SEPARATOR" some v).map fun text => .named none (some text)

inductive AnswerPart where
  | answer
  | separator

namespace AnswerOptions

def get? : AnswerPart → AnswerOptions → Option String
  | .answer, named answer _ => answer
  | .answer, listed answer _ _ => some answer
  | .separator, named _ separator => separator
  | .separator, listed _ separator _ => some separator

end AnswerOptions

namespace Spelling

def home : Spelling Path := ⟨under "home" string?, under "QUESTLINE__HOME" some⟩

def templates : Spelling Path := ⟨under "templates_dir" string?, under "QUESTLINE__TEMPLATES_DIR" some⟩

def maxRestarts : Spelling Nat :=
  ⟨under "max_restarts" count?, under "QUESTLINE__MAX_RESTARTS" countText?⟩

def strict : Spelling Bool := ⟨under "strict" flag?, under "QUESTLINE__STRICT" flagText?⟩

def answers (part : AnswerPart) : Spelling String :=
  ⟨fun e => (entrySection? e).bind (·.get? part), fun v => (variableSection? v).bind (·.get? part)⟩

end Spelling

def isKnownAnswer : String × Raw → Bool
  | ("prefix", .str _) => true
  | ("separator", .str _) => true
  | _ => false

/-- An option with a value of its type. A list in place of the section holds its values in order. -/
def isKnown : String × Raw → Bool
  | ("home", r) => (string? r).isSome
  | ("templates_dir", r) => (string? r).isSome
  | ("max_restarts", r) => (count? r).isSome
  | ("strict", r) => (flag? r).isSome
  | ("answers", .object entries) => entries.all isKnownAnswer
  | ("answers", .list (.str _ :: .str _ :: _)) => true
  | _ => false

/-- A variable that sets no option, or has a text that its option can take. -/
def isWellFormed (v : String × String) : Bool :=
  (v.1 != "QUESTLINE__MAX_RESTARTS" || (countText? v.2).isSome) &&
    (v.1 != "QUESTLINE__STRICT" || (flagText? v.2).isSome)

def fileEntries? (text : String) : Option (List (String × Raw)) :=
  (Toml.read? text.toList).map fun l => Toml.rawEntries l.entries

/-- All that is said about answers, the lowest layer first. -/
def mentions (files : List (List (String × Raw))) (environment : Environment) : List AnswerOptions :=
  files.flatten.filterMap entrySection? ++ environment.filterMap variableSection?

/-- A list in place of the section on answers has no more values than there are options and nothing said
above it, or both options are set above it. -/
def ListsGiveWay (files : List (List (String × Raw))) (environment : Environment) : Prop :=
  ∀ below answer separator hasMore above,
    mentions files environment = below ++ .listed answer separator hasMore :: above →
      hasMore = false ∧ above = [] ∨ ∀ part, (last? (AnswerOptions.get? part) above).isSome

namespace AnswerOptions

/-- A list is in the way: the option is not set by what is put over it. -/
def Hidden (part : AnswerPart) (ms : List AnswerOptions) : Prop :=
  ∃ below answer separator hasMore above,
    ms = below ++ listed answer separator hasMore :: above ∧ above ≠ [] ∧ last? (get? part) above = none

variable {part : AnswerPart} {ms ms' : List AnswerOptions} {x y : Option AnswerOptions}

theorem Hidden.append_left (h : Hidden part ms') (ms : List AnswerOptions) : Hidden part (ms ++ ms') := by
  obtain ⟨below, answer, separator, hasMore, above, rfl, hne, hnone⟩ := h
  exact ⟨ms ++ below, answer, separator, hasMore, above, by simp, hne, hnone⟩

theorem Hidden.append_right (h : Hidden part ms) (hms : last? (get? part) ms' = none) :
    Hidden part (ms ++ ms') := by
  obtain ⟨below, answer, separator, hasMore, above, rfl, hne, hnone⟩ := h
  refine ⟨below, answer, separator, hasMore, above ++ ms', by simp, by simp [hne], ?_⟩
  rw [last?_append, hms, hnone]
  rfl

/-- What some mentions of the section come to, each put over those before it. -/
structure SumsUp (ms : List AnswerOptions) (x : Option AnswerOptions) : Prop where
  none_iff : x = none ↔ ms = []
  list_last : ∀ answer separator hasMore, x = some (listed answer separator hasMore) → ms.getLast? = x
  value : ∀ part, Hidden part ms ∨ x.bind (get? part) = last? (get? part) ms

theorem SumsUp.nil : SumsUp [] none :=
  ⟨by simp, by simp, fun _ => .inr rfl⟩

theorem SumsUp.singleton (m : AnswerOptions) : SumsUp [m] (some m) :=
  ⟨by simp, by simp, fun _ => .inr (by simp)⟩

theorem get?_above_of_some {top : AnswerOptions} {text : String} (h : top.get? part = some text)
    (base : AnswerOptions) : (top.above base).get? part = some text := by
  cases part <;> cases top <;> cases base <;> simp_all [get?, AnswerOptions.above]

/-- A table puts its options over those of another table, and in place of a list. -/
theorem get?_above_of_none {top : AnswerOptions} (h : top.get? part = none) (base : AnswerOptions) :
    (top.above base).get? part = base.get? part ∨
      ∃ answer separator hasMore, base = listed answer separator hasMore := by
  cases base with
  | listed answer separator hasMore => exact .inr ⟨answer, separator, hasMore, rfl⟩
  | named answer separator =>
    left
    cases part <;> cases top <;> simp_all [get?, AnswerOptions.above]

theorem above_eq_listed {top base : AnswerOptions} {answer separator : String} {hasMore : Bool}
    (h : top.above base = listed answer separator hasMore) : top = listed answer separator hasMore := by
  cases top <;> cases base <;> simp_all [AnswerOptions.above]

theorem SumsUp.above (h : SumsUp ms x) (h' : SumsUp ms' y) :
    SumsUp (ms ++ ms') (Layer.answersAbove y x) := by
  cases y with
  | none =>
    obtain rfl := h'.none_iff.mp rfl
    simpa [Layer.answersAbove] using h
  | some top =>
    have hne : ms' ≠ [] := fun hnil => by simpa using h'.none_iff.mpr hnil
    have hlast : (ms ++ ms').getLast? = ms'.getLast? := List.getLast?_append_of_ne_nil ms hne
    refine ⟨?_, fun answer separator hasMore hx => ?_, fun part => ?_⟩
    · cases x <;> simp [Layer.answersAbove, hne]
    · have htop : top = listed answer separator hasMore := by
        cases x with
        | none => exact Option.some.inj hx
        | some base => exact above_eq_listed (Option.some.inj hx)
      rw [hx, hlast, h'.list_last answer separator hasMore (congrArg some htop), htop]
    · rcases h'.value part with hhidden | hvalue
      · exact .inl (hhidden.append_left ms)
      rw [last?_append, ← hvalue]
      change _ ∨ _ = (top.get? part <|> _)
      cases htop : top.get? part with
      | some text =>
        right
        cases x with
        | none => simp [Layer.answersAbove, htop]
        | some base => simp [Layer.answersAbove, get?_above_of_some htop base]
      | none =>
        have hnone : last? (get? part) ms' = none := by rw [← hvalue]; exact htop
        rcases h.value part with hhidden | hbase
        · exact .inl (hhidden.append_right hnone)
        cases x with
        | none => exact .inr (by simpa [Layer.answersAbove, htop] using hbase)
        | some base =>
          rcases get?_above_of_none htop base with habove | ⟨answer, separator, hasMore, rfl⟩
          · exact .inr (by simpa [Layer.answersAbove, habove] using hbase)
          · obtain ⟨below, rfl⟩ := List.getLast?_eq_some_iff.mp (h.list_last _ _ _ rfl)
            exact .inl ⟨below, answer, separator, hasMore, ms', by simp, hne, hnone⟩

end AnswerOptions

namespace Layer

variable {ls ms : List Layer} {l m : Layer}

structure SumsUp (ls : List Layer) (l : Layer) : Prop where
  home : l.home = last? Layer.home ls
  templates : l.templates = last? Layer.templates ls
  maxRestarts : l.maxRestarts = last? Layer.maxRestarts ls
  strict : l.strict = last? Layer.strict ls
  answers : AnswerOptions.SumsUp (ls.filterMap Layer.answers) l.answers

theorem SumsUp.nil : SumsUp [] {} :=
  ⟨rfl, rfl, rfl, rfl, .nil⟩

theorem SumsUp.singleton (l : Layer) : SumsUp [l] l := by
  refine ⟨by simp, by simp, by simp, by simp, ?_⟩
  cases h : l.answers with
  | none => simpa [h] using AnswerOptions.SumsUp.nil
  | some m => simpa [h] using AnswerOptions.SumsUp.singleton m

theorem SumsUp.above (h : SumsUp ls l) (h' : SumsUp ms m) : SumsUp (ls ++ ms) (m.above l) := by
  refine ⟨?_, ?_, ?_, ?_, ?_⟩
  · rw [last?_append, ← h.home, ← h'.home, Layer.above]
  · rw [last?_append, ← h.templates, ← h'.templates, Layer.above]
  · rw [last?_append, ← h.maxRestarts, ← h'.maxRestarts, Layer.above]
  · rw [last?_append, ← h.strict, ← h'.strict, Layer.above]
  · rw [List.filterMap_append]
    exact h.answers.above h'.answers

theorem SumsUp.foldl {α : Type} (f : α → Layer) (h : SumsUp ls l) (xs : List α) :
    SumsUp (ls ++ xs.map f) (xs.foldl (fun l x => (f x).above l) l) := by
  induction xs generalizing ls l with
  | nil => simpa using h
  | cons x xs ih => simpa using ih (h.above (.singleton (f x)))

end Layer

end Interview.Configuration
