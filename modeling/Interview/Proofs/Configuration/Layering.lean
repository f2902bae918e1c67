import Interview.Proofs.Configuration.Sources
import Interview.Proofs.Text.Cutting

/-! The options of the tool, each by itself. The last environment variable that sets an option decides it, or
else the last file that does, or else its default: files that are accepted and well-formed variables are
read entry by entry into layers of their own, each put over those before it. -/

namespace Interview.Configuration

def entryLayer (e : String × Raw) : Layer where
  home := Spelling.home.inFile e
  templates := Spelling.templates.inFile e
  maxRestarts := Spelling.maxRestarts.inFile e
  strict := Spelling.strict.inFile e
  answers := entrySection? e

def variableLayer (v : String × String) : Layer where
  home := Spelling.home.inEnvironment v
  templates := Spelling.templates.inEnvironment v
  maxRestarts := Spelling.maxRestarts.inEnvironment v
  strict := Spelling.strict.inEnvironment v
  answers := variableSection? v

theorem entryLayer_eq (e : String × Raw) :
    entryLayer e = ⟨under "home" string? e, under "templates_dir" string? e, under "max_restarts" count? e,
      under "strict" flag? e, under "answers" section? e⟩ := rfl

theorem variableLayer_eq (v : String × String) :
    variableLayer v = ⟨under "QUESTLINE__HOME" some v, under "QUESTLINE__TEMPLATES_DIR" some v,
      under "QUESTLINE__MAX_RESTARTS" countText? v, under "QUESTLINE__STRICT" flagText? v,
      variableSection? v⟩ := rfl

theorem answersAbove_named (answer separator answer' separator' : Option String)
    (base : Option AnswerOptions) :
    Layer.answersAbove (some (.named answer separator))
        (Layer.answersAbove (some (.named answer' separator')) base) =
      Layer.answersAbove (some (.named (answer <|> answer') (separator <|> separator'))) base := by
  cases base with
  | none => rfl
  | some m => cases m <;> simp [Layer.answersAbove, AnswerOptions.above, Option.or_assoc]

theorem foldlM_answersEntry {entries : List (String × Raw)} (h : ∀ e ∈ entries, isKnownAnswer e = true)
    (base : Option AnswerOptions) (answer separator : Option String) (l : Layer) (unknown : List String) :
    entries.foldlM answersEntry?
        ⟨{ l with answers := Layer.answersAbove (some (.named answer separator)) base }, unknown⟩ =
      some ⟨{ l with
        answers := Layer.answersAbove (some (.named
          (last? (under "prefix" string?) entries <|> answer)
          (last? (under "separator" string?) entries <|> separator))) base }, unknown⟩ := by
  induction entries generalizing answer separator with
  | nil => rfl
  | cons e entries ih =>
    obtain ⟨he, hentries⟩ := List.forall_mem_cons.mp h
    unfold isKnownAnswer at he
    split at he
    case h_1 text | h_2 text =>
      simp [string?, answersEntry?, Layer.withAnswers, answersAbove_named, ih hentries, last?_cons, under]
    case h_3 => cases he

theorem entry?_known {e : String × Raw} (h : isKnown e = true) (l : Layer) (unknown : List String) :
    entry? ⟨l, unknown⟩ e = some ⟨(entryLayer e).above l, unknown⟩ := by
  unfold isKnown at h
  split at h
  case h_1 r | h_2 r | h_3 r | h_4 r =>
    obtain ⟨v, hv⟩ := Option.isSome_iff_exists.mp h
    simp [hv, entry?, entryLayer_eq, under, Layer.above, Layer.answersAbove]
  case h_5 entries =>
    have hfold := foldlM_answersEntry (by simpa using h) l.answers none none l unknown
    simp [answers?, entry?, Layer.withAnswers, hfold, entryLayer_eq, under, section?, Layer.above]
  case h_6 answer separator more =>
    have habove (base : Option AnswerOptions) :
        Layer.answersAbove (some (.listed answer separator !more.isEmpty)) base =
          some (.listed answer separator !more.isEmpty) := by
      cases base <;> rfl
    simp [answers?, entry?, string?, habove, entryLayer_eq, under, section?, Layer.above]
  case h_7 => cases h

theorem foldlM_entry {entries : List (String × Raw)} (h : ∀ e ∈ entries, isKnown e = true) (l : Layer)
    (unknown : List String) :
    entries.foldlM entry? ⟨l, unknown⟩ =
      some ⟨entries.foldl (fun l e => (entryLayer e).above l) l, unknown⟩ := by
  induction entries generalizing l with
  | nil => rfl
  | cons e entries ih =>
    obtain ⟨he, hentries⟩ := List.forall_mem_cons.mp h
    rw [List.foldlM_cons, entry?_known he]
    exact ih hentries _

theorem known_or_more_of_foldlM {α : Type} {step : Draft → α → Option Draft} {known : α → Bool}
    (hstep : ∀ d e d', step d e = some d' →
      known e = true ∧ d'.unknown = d.unknown ∨ d.unknown.length < d'.unknown.length)
    {es : List α} {d d' : Draft} (h : es.foldlM step d = some d') :
    (∀ e ∈ es, known e = true) ∧ d'.unknown = d.unknown ∨ d.unknown.length < d'.unknown.length := by
  induction es generalizing d with
  | nil =>
    obtain rfl := Option.some.inj h
    exact .inl ⟨by simp, rfl⟩
  | cons e es ih =>
    rw [List.foldlM_cons] at h
    obtain ⟨next, hnext, h⟩ := Option.bind_eq_some_iff.mp h
    rcases hstep d e next hnext with ⟨he, hsame⟩ | hmore
    · rcases ih h with ⟨hall, hend⟩ | hlt
      · exact .inl ⟨List.forall_mem_cons.mpr ⟨he, hall⟩, hend.trans hsame⟩
      · exact .inr (hsame ▸ hlt)
    · rcases ih h with ⟨-, hend⟩ | hlt
      · exact .inr (hend ▸ hmore)
      · exact .inr (Nat.lt_trans hmore hlt)

theorem answersEntry?_known_or_more (d : Draft) (e : String × Raw) (d' : Draft)
    (h : answersEntry? d e = some d') :
    isKnownAnswer e = true ∧ d'.unknown = d.unknown ∨ d.unknown.length < d'.unknown.length := by
  unfold answersEntry? at h
  split at h
  case h_1 r | h_2 r =>
    obtain ⟨text, htext, rfl⟩ := Option.map_eq_some_iff.mp h
    cases r <;> cases htext
    exact .inl ⟨rfl, rfl⟩
  case h_3 =>
    obtain rfl := Option.some.inj h
    exact .inr (by simp)

theorem answers?_known_or_more {d d' : Draft} {r : Raw} (h : answers? d r = some d') :
    isKnown ("answers", r) = true ∧ d'.unknown = d.unknown ∨ d.unknown.length < d'.unknown.length := by
  unfold answers? at h
  split at h
  · next entries =>
    have hfold := known_or_more_of_foldlM answersEntry?_known_or_more h
    simpa [isKnown] using hfold
  · next answer separator more =>
    obtain ⟨a, ha, h⟩ := Option.bind_eq_some_iff.mp h
    obtain ⟨s, hs, h⟩ := Option.bind_eq_some_iff.mp h
    obtain rfl := Option.some.inj h
    cases answer <;> cases ha
    cases separator <;> cases hs
    exact .inl ⟨rfl, rfl⟩
  · cases h

/-- An entry is accepted without a report exactly if it is known. -/
theorem entry?_known_or_more (d : Draft) (e : String × Raw) (d' : Draft) (h : entry? d e = some d') :
    isKnown e = true ∧ d'.unknown = d.unknown ∨ d.unknown.length < d'.unknown.length := by
  unfold entry? at h
  split at h
  case h_1 r | h_2 r | h_3 r | h_4 r =>
    obtain ⟨v, hv, rfl⟩ := Option.map_eq_some_iff.mp h
    exact .inl ⟨by simp [isKnown, hv], rfl⟩
  case h_5 r => exact answers?_known_or_more h
  case h_6 =>
    obtain rfl := Option.some.inj h
    exact .inr (by simp)

theorem fileLayer_known (path : Path) {text : String} {entries : List (String × Raw)}
    (hread : fileEntries? text = some entries) (h : ∀ e ∈ entries, isKnown e = true) :
    ∃ l, fileLayer path text = .ok l ∧ Layer.SumsUp (entries.map entryLayer) l := by
  obtain ⟨layout, hl, rfl⟩ := Option.map_eq_some_iff.mp hread
  refine ⟨_, ?_, Layer.SumsUp.nil.foldl entryLayer (Toml.rawEntries layout.entries)⟩
  simp [fileLayer, hl, Toml.Layout.raw, Draft.ofRaw?, foldlM_entry h]

/-- A file is accepted exactly if it can be read and its options are known and have values of their types. -/
theorem fileLayer_isOk_iff (path : Path) (text : String) :
    (∃ l, fileLayer path text = .ok l) ↔
      ∃ entries, fileEntries? text = some entries ∧ ∀ e ∈ entries, isKnown e = true := by
  constructor
  · rintro ⟨l, h⟩
    unfold fileLayer at h
    split at h
    · cases h
    · next d hd =>
      obtain ⟨layout, hl, hd⟩ := Option.bind_eq_some_iff.mp hd
      refine ⟨Toml.rawEntries layout.entries, by rw [fileEntries?, hl, Option.map_some], ?_⟩
      rcases known_or_more_of_foldlM entry?_known_or_more hd with ⟨hknown, -⟩ | hmore
      · exact hknown
      · have hne : d.unknown.isEmpty = false := by
          simpa using List.ne_nil_of_length_pos (Nat.zero_lt_of_lt hmore)
        rw [hne] at h
        cases h
  · rintro ⟨entries, hread, hknown⟩
    obtain ⟨l, hl, -⟩ := fileLayer_known path hread hknown
    exact ⟨l, hl⟩

theorem foldlM_fileLayer {files : List (Path × String)} {data : List (List (String × Raw))}
    (hread : files.mapM (fun file => fileEntries? file.2) = some data)
    (h : ∀ entries ∈ data, ∀ e ∈ entries, isKnown e = true) {ls : List Layer} {base : Layer}
    (hbase : Layer.SumsUp ls base) :
    ∃ l, files.foldlM (fun base (file : Path × String) =>
          (fileLayer file.1 file.2).map fun (top : Layer) => top.above base) base = .ok l ∧
        Layer.SumsUp (ls ++ data.flatten.map entryLayer) l := by
  induction files generalizing data ls base with
  | nil =>
    obtain rfl : data = [] := by simpa using hread.symm
    exact ⟨base, rfl, by simpa using hbase⟩
  | cons file files ih =>
    obtain ⟨path, text⟩ := file
    obtain ⟨entries, hentries, rest, hrest, rfl⟩ := by
      simpa [List.mapM_cons, Option.bind_eq_some_iff] using hread
    obtain ⟨hknown, hmore⟩ := List.forall_mem_cons.mp h
    obtain ⟨top, htop, hsum⟩ := fileLayer_known path hentries hknown
    obtain ⟨l, hl, hall⟩ := ih hrest hmore (hbase.above hsum)
    refine ⟨l, ?_, by simpa using hall⟩
    rw [List.foldlM_cons]
    simpa [htop, Except.map, bind, Except.bind] using hl

theorem filesLayer_known {files : List (Path × String)} {data : List (List (String × Raw))}
    (hread : files.mapM (fun file => fileEntries? file.2) = some data)
    (h : ∀ entries ∈ data, ∀ e ∈ entries, isKnown e = true) :
    ∃ l, filesLayer files = .ok l ∧ Layer.SumsUp (data.flatten.map entryLayer) l :=
  foldlM_fileLayer hread h .nil

def optionNames : List String :=
  ["HOME", "TEMPLATES_DIR", "MAX_RESTARTS", "STRICT", "ANSWERS__PREFIX", "ANSWERS__SEPARATOR"]

theorem variableLayer_unknown {name : String} (h : ∀ option ∈ optionNames, name ≠ variableMark ++ option)
    (text : String) : variableLayer (name, text) = {} := by
  simp only [optionNames, List.forall_mem_cons, variableMark, String.reduceAppend] at h
  obtain ⟨hhome, htemplates, hcount, hstrict, hanswer, hseparator, -⟩ := h
  simp [variableLayer_eq, variableSection?, under, *]

theorem withVariable_wellFormed {name text : String} (h : isWellFormed (name, text) = true) (l : Layer)
    (log : List Event) :
    ∃ log', withVariable l log name text = .ok ((variableLayer (name, text)).above l, log') := by
  have hempty : ({} : Layer).above l = l := rfl
  unfold withVariable
  split
  · next hs =>
    have hunknown : ∀ option ∈ optionNames, name ≠ variableMark ++ option := by
      rintro option - rfl
      have hstarts : variableMark.toList <+: (variableMark ++ option).toList :=
        ⟨option.toList, String.toList_append.symm⟩
      have hsome := Text.stripPrefix?_isSome.mpr hstarts
      rw [hs] at hsome
      cases hsome
    exact ⟨log, by rw [variableLayer_unknown hunknown, hempty]⟩
  · next option hs =>
    have hname : name = variableMark ++ String.ofList option := by
      rw [← String.toList_inj, Text.stripPrefix?_eq_some.mp hs]
      simp
    split
    case h_1 ho | h_2 ho =>
      rw [hname, ho]
      refine ⟨log, ?_⟩
      simp [variableMark, variableLayer_eq, variableSection?, under, Layer.above, Layer.answersAbove]
    case h_3 ho | h_4 ho =>
      rw [hname, ho] at h ⊢
      obtain ⟨v, hv⟩ := Option.isSome_iff_exists.mp (by simpa [isWellFormed, variableMark] using h)
      refine ⟨log, ?_⟩
      simp [variableMark, variableLayer_eq, variableSection?, under, Layer.above, Layer.answersAbove, hv]
    case h_5 ho | h_6 ho =>
      rw [hname, ho]
      refine ⟨log, ?_⟩
      simp [variableMark, variableLayer_eq, variableSection?, under, Layer.above, Layer.withAnswers]
    case h_7 h1 h2 h3 h4 h5 h6 =>
      have hunknown : ∀ option ∈ optionNames, name ≠ variableMark ++ option := by
        simpa [optionNames, hname] using ⟨h1, h2, h3, h4, h5, h6⟩
      exact ⟨_, by rw [variableLayer_unknown hunknown, hempty]⟩

theorem environmentLayer_wellFormed {environment : Environment}
    (h : ∀ v ∈ environment, isWellFormed v = true) (l : Layer) (log : List Event) :
    ∃ log', environmentLayer l log environment =
      (.ok (environment.foldl (fun l v => (variableLayer v).above l) l), log') := by
  induction environment generalizing l log with
  | nil => exact ⟨log, rfl⟩
  | cons v environment ih =>
    obtain ⟨hv, hmore⟩ := List.forall_mem_cons.mp h
    obtain ⟨log', hlog⟩ := withVariable_wellFormed hv l log
    obtain ⟨log'', hrest⟩ := ih hmore ((variableLayer v).above l) log'
    exact ⟨log'', by rw [environmentLayer, hlog]; exact hrest⟩

variable {files : List (Path × String)} {data : List (List (String × Raw))} {environment : Environment}

theorem not_hidden (h : ListsGiveWay data environment) (part : AnswerPart) :
    ¬ AnswerOptions.Hidden part (mentions data environment) := by
  rintro ⟨below, answer, separator, hasMore, above, hms, hne, hnone⟩
  rcases h below answer separator hasMore above hms with ⟨-, hnil⟩ | hset
  · exact hne hnil
  · have hpart := hset part
    rw [hnone] at hpart
    cases hpart

theorem format?_of_sumsUp {x : Option AnswerOptions} (h : ListsGiveWay data environment)
    (hx : AnswerOptions.SumsUp (mentions data environment) x) :
    (x.getD (.named none none)).format? =
      some ⟨(last? (AnswerOptions.get? .answer) (mentions data environment)).getD "answer:",
        (last? (AnswerOptions.get? .separator) (mentions data environment)).getD "====="⟩ := by
  have hvalue (part : AnswerPart) : x.bind (AnswerOptions.get? part) = _ :=
    (hx.value part).resolve_left (not_hidden h part)
  rw [← hvalue .answer, ← hvalue .separator]
  cases x with
  | none => rfl
  | some top =>
    cases top with
    | named answer separator => rfl
    | listed answer separator hasMore =>
      obtain ⟨below, hms⟩ := List.getLast?_eq_some_iff.mp (hx.list_last _ _ _ rfl)
      rcases h below answer separator hasMore [] hms with ⟨rfl, -⟩ | hset
      · rfl
      · cases hset .answer

theorem last?_mentions (part : AnswerPart) (data : List (List (String × Raw)))
    (environment : Environment) :
    last? (AnswerOptions.get? part) (mentions data environment) =
      (Spelling.answers part).value? data environment := by
  rw [mentions, last?_append, last?_filterMap, last?_filterMap, last?_flatten]
  rfl

theorem last?_layers {α : Type} (get : Layer → Option α) (data : List (List (String × Raw)))
    (environment : Environment) :
    last? get (data.flatten.map entryLayer ++ environment.map variableLayer) =
      Spelling.value? ⟨fun e => get (entryLayer e), fun v => get (variableLayer v)⟩ data environment := by
  rw [last?_append, last?_map, last?_map, last?_flatten]
  rfl

/-- From files with known options of the right types and an environment with well-formed variables a
configuration comes about, and in it every option has, whatever is said of the others, the value of the last
variable that sets it, or else of the last file that sets it, or else its default. -/
theorem resolve_option_by_option (hread : files.mapM (fun file => fileEntries? file.2) = some data)
    (hknown : ∀ entries ∈ data, ∀ e ∈ entries, isKnown e = true)
    (henvironment : ∀ v ∈ environment, isWellFormed v = true) (hlists : ListsGiveWay data environment) :
    (resolve files environment).1 =
      .ok {
        home := Spelling.home.value? data environment
        templates := Spelling.templates.value? data environment
        maxRestarts := (Spelling.maxRestarts.value? data environment).getD 10000
        strict := (Spelling.strict.value? data environment).getD false
        answers := {
          answer := ((Spelling.answers .answer).value? data environment).getD "answer:"
          separator := ((Spelling.answers .separator).value? data environment).getD "=====" } } := by
  obtain ⟨base, hbase, hfiles⟩ := filesLayer_known hread hknown
  obtain ⟨log, henv⟩ := environmentLayer_wellFormed henvironment {} []
  have htop : Layer.SumsUp (environment.map variableLayer) _ := Layer.SumsUp.nil.foldl variableLayer environment
  have hall := hfiles.above htop
  have hmentions : (data.flatten.map entryLayer ++ environment.map variableLayer).filterMap Layer.answers =
      mentions data environment := by
    rw [mentions, List.filterMap_append, List.filterMap_map, List.filterMap_map]
    rfl
  have hanswers := format?_of_sumsUp hlists (hmentions ▸ hall.answers)
  rw [last?_mentions, last?_mentions] at hanswers
  rw [resolve, hbase]
  dsimp only
  rw [henv]
  dsimp only
  rw [Layer.configuration, hanswers, hall.home, hall.templates, hall.maxRestarts, hall.strict]
  simp only [last?_layers]
  rfl

section Sources

/-- A lower file with a list of answers options, and a higher one with a section that sets both. -/
def layeredFiles : List (Path × String) :=
  [("platform.toml", "strict = true\nanswers = [\"a:\", \"--\"]\n"),
    ("explicit.toml", "home = \"/h\"\n[answers]\nprefix = \"b:\"\nseparator = \"++\"\n")]

def layeredData : List (List (String × Raw)) :=
  [[("strict", .bool true), ("answers", .list [.str "a:", .str "--"])],
    [("home", .str "/h"), ("answers", .object [("prefix", .str "b:"), ("separator", .str "++")])]]

def layeredEnvironment : Environment :=
  [("QUESTLINE__ANSWERS__PREFIX", "c:"), ("QUESTLINE__STRICTER", "on"), ("QUESTLINE__MAX_RESTARTS", "5"),
    ("QUESTLINE__ANSWERS__PREFIX", "d:")]

theorem resolve_option_by_option_of_layers :
    layeredFiles.mapM (fun file => fileEntries? file.2) = some layeredData ∧
      (resolve layeredFiles layeredEnvironment).1 =
        .ok { home := some "/h", maxRestarts := 5, strict := true, answers := ⟨"d:", "++"⟩ } := by
  have hplatform : fileEntries? "strict = true\nanswers = [\"a:\", \"--\"]\n" =
      some [("strict", .bool true), ("answers", .list [.str "a:", .str "--"])] := by cbv
  have hexplicit : fileEntries? "home = \"/h\"\n[answers]\nprefix = \"b:\"\nseparator = \"++\"\n" =
      some [("home", .str "/h"), ("answers", .object [("prefix", .str "b:"), ("separator", .str "++")])] := by
    cbv
  have hread : layeredFiles.mapM (fun file => fileEntries? file.2) = some layeredData := by
    simp [layeredFiles, layeredData, hplatform, hexplicit]
  have hmentions : mentions layeredData layeredEnvironment =
      [.listed "a:" "--" false, .named (some "b:") (some "++"), .named (some "c:") none,
        .named (some "d:") none] := rfl
  have hlists : ListsGiveWay layeredData layeredEnvironment := by
    intro below answer separator hasMore above h
    rw [hmentions] at h
    cases below with
    | nil =>
      obtain ⟨-, rfl⟩ := List.cons.inj h
      exact .inr fun part => by cases part <;> rfl
    | cons first below =>
      have hmem : .listed answer separator hasMore ∈ below ++ .listed answer separator hasMore :: above := by
        simp
      rw [List.cons_append, List.cons.injEq] at h
      rw [← h.2] at hmem
      simp at hmem
  refine ⟨hread, ?_⟩
  rw [resolve_option_by_option hread (by decide) (by decide) hlists]
  rfl

/-- A variable takes the other option with it where the section of the file is a list. -/
theorem resolve_discards_listed_separator :
    let files := [("q.toml", "answers = [\"a:\", \"--\"]\n")]
    let data := [[("answers", .list [.str "a:", .str "--"])]]
    let environment := [("QUESTLINE__ANSWERS__PREFIX", "reply:")]
    files.mapM (fun file => fileEntries? file.2) = some data ∧
      (∀ entries ∈ data, ∀ e ∈ entries, isKnown e = true) ∧
      (∀ v ∈ environment, isWellFormed v = true) ∧
      (Spelling.answers .separator).value? data environment = some "--" ∧
      (resolve files environment).1 = .ok { answers := ⟨"reply:", "====="⟩ } := by
  intro files data environment
  have hfile : fileEntries? "answers = [\"a:\", \"--\"]\n" =
      some [("answers", .list [.str "a:", .str "--"])] := by cbv
  refine ⟨by simp [files, data, hfile], by decide, by decide, by rfl, by cbv⟩

end Sources

end Interview.Configuration
