import Interview.Proofs.Settings.Rebuilding
import Interview.Proofs.Text.Trimming
import Interview.Settings.File

/-! Stores written as text and read again. A rendering in YAML or JSON shows something for every store,
so it is never taken for an empty file; what the reader gets out of it is merged entry by entry, which
gives the table back where no key is empty or holds a dot. -/

namespace Interview

namespace Yaml

namespace Page

variable {c : Char} {p : Page}

theorem mem_put (h : c ∈ p.reversed) (d : Char) : c ∈ (p.put d).reversed := List.mem_cons_of_mem d h

theorem mem_puts_iff (cs : List Char) : c ∈ (p.puts cs).reversed ↔ c ∈ cs ∨ c ∈ p.reversed := by
  induction cs generalizing p with
  | nil => simp [puts]
  | cons d cs ih =>
    have hp : (p.puts (d :: cs)) = (p.put d).puts cs := rfl
    rw [hp, ih, put, List.mem_cons, List.mem_cons]
    tauto

theorem mem_puts (h : c ∈ p.reversed) (cs : List Char) : c ∈ (p.puts cs).reversed :=
  (mem_puts_iff cs).mpr (.inr h)

theorem mem_newline (h : c ∈ p.reversed) (d : Char) : c ∈ (p.newline d).reversed :=
  List.mem_cons_of_mem d h

theorem mem_indentTo (h : c ∈ p.reversed) (indent : Int) : c ∈ (p.indentTo indent).reversed := by
  unfold indentTo
  refine mem_puts ?_ _
  split
  · exact mem_newline h '\n'
  · exact h

theorem mem_gap (h : c ∈ p.reversed) : c ∈ p.gap.reversed := by
  unfold gap
  split
  · exact h
  · exact mem_put h ' '

theorem mem_mark (h : c ∈ p.reversed) (cs : List Char) : c ∈ (p.mark cs).reversed := mem_puts h cs

theorem mem_blockMark (h : c ∈ p.reversed) (d : Char) : c ∈ (p.blockMark d).reversed :=
  mem_put (mem_gap h) d

theorem mem_plain (h : c ∈ p.reversed) (cs : List Char) : c ∈ (p.plain cs).reversed :=
  mem_puts (mem_gap h) cs

theorem mem_broken (h : c ∈ p.reversed) (indent : Int) (doubled atBreak : Bool) (cs : List Char) :
    c ∈ (p.broken indent doubled atBreak cs).reversed := by
  induction cs generalizing p atBreak with
  | nil => exact h
  | cons d cs ih =>
    unfold broken
    dsimp only
    split
    · apply ih
      refine mem_newline ?_ d
      split
      · exact mem_newline h '\n'
      · exact h
    · apply ih
      refine mem_put ?_ d
      split
      · exact mem_indentTo h indent
      · exact h

theorem mem_single (h : c ∈ p.reversed) (indent : Int) (cs : List Char) :
    c ∈ (p.single indent cs).reversed := by
  unfold single
  refine mem_mark ?_ _
  have hb := mem_broken (mem_mark (mem_gap h) ['\'']) indent true false
    (cs.flatMap fun c => if c = '\'' then [c, c] else [c])
  split
  · exact mem_indentTo hb indent
  · exact hb

theorem mem_double (h : c ∈ p.reversed) (cs : List Char) : c ∈ (p.double cs).reversed :=
  mem_mark (mem_puts (mem_mark (mem_gap h) _) _) _

theorem mem_literal (h : c ∈ p.reversed) (indent : Int) (cs : List Char) :
    c ∈ (p.literal indent cs).reversed := by
  unfold literal
  apply mem_broken
  exact mem_newline (mem_mark (mem_gap h) _) '\n'

end Page

variable {c : Char} {p : Page}

theorem mem_writeString (h : c ∈ p.reversed) (isKey : Bool) (indent : Int) (cs : List Char) :
    c ∈ (writeString isKey indent cs p).reversed := by
  unfold writeString
  dsimp only
  split
  · exact p.mem_plain h cs
  · exact p.mem_single h _ cs
  · exact p.mem_double h cs
  · exact p.mem_literal h _ cs

theorem colon_of_key (indent : Int) (key : String) (p : Page) :
    ':' ∈ (if isSimpleKey key then (writeString true indent key.toList p).mark [':']
      else ((writeString false indent key.toList (p.blockMark '?')).indentTo indent).blockMark
        ':').reversed := by
  split
  · exact (Page.mem_puts_iff [':']).mpr (.inl (by simp))
  · exact List.mem_cons_self

mutual

theorem mem_writeValue {p : Page} (h : c ∈ p.reversed) (indent : Int) (underKey : Bool) (v : Value) :
    c ∈ (writeValue indent underKey v p).reversed := by
  match v with
  | .str s => exact mem_writeString h false indent s.toList
  | .int n => exact p.mem_plain h _
  | .float x => exact p.mem_plain h _
  | .bool b => exact p.mem_plain h _
  | .datetime d =>
    exact mem_writeString (Page.mem_mark (mem_writeString (Page.mem_indentTo h _) true _ _) _)
      false _ _
  | .array [] => exact Page.mem_mark (Page.mem_gap h) _
  | .array (v :: vs) => exact mem_writeItems h _ (v :: vs)
  | .table [] => exact Page.mem_mark (Page.mem_gap h) _
  | .table (e :: es) => exact mem_writeEntries h _ (e :: es)
termination_by sizeOf v

theorem mem_writeItems {p : Page} (h : c ∈ p.reversed) (indent : Int) (vs : List Value) :
    c ∈ (writeItems indent vs p).reversed := by
  match vs with
  | [] => exact h
  | v :: rest =>
    have hmark := Page.mem_blockMark (Page.mem_indentTo h indent) '-'
    exact mem_writeItems (mem_writeValue hmark indent false v) indent rest
termination_by sizeOf vs

theorem mem_writeEntries {p : Page} (h : c ∈ p.reversed) (indent : Int)
    (entries : List (String × Value)) :
    c ∈ (writeEntries indent entries p).reversed := by
  match entries with
  | [] => exact h
  | (key, v) :: rest =>
    refine mem_writeEntries (mem_writeValue ?_ indent true v) indent rest
    have hi := Page.mem_indentTo h indent
    split
    · exact Page.mem_mark (mem_writeString hi true indent key.toList) [':']
    · refine Page.mem_blockMark (Page.mem_indentTo ?_ indent) ':'
      exact mem_writeString (Page.mem_blockMark hi '?') false indent key.toList
termination_by sizeOf entries

end

theorem trim_render_ne_nil (t : Table) : Text.trim (render t) ≠ [] := by
  have hshown : ∃ c ∈ (writeValue (-1) false (.table t) .start).reversed, Text.isBlank c = false := by
    cases t with
    | nil => exact ⟨'{', (Page.mem_puts_iff ['{', '}']).mpr (.inl (by simp)), by decide⟩
    | cons e rest =>
      obtain ⟨key, v⟩ := e
      refine ⟨':', mem_writeEntries (mem_writeValue ?_ _ true v) _ rest, by decide⟩
      exact colon_of_key _ key _
  obtain ⟨c, hc, hb⟩ := hshown
  exact Text.trim_ne_nil (List.mem_reverse.mpr (Page.mem_indentTo hc 0)) hb

end Yaml

theorem Json.trim_render_ne_nil (t : Table) : Text.trim (Json.render t) ≠ [] := by
  have hbrace : '{' ∈ Json.render t := by
    cases t with
    | nil => simp [Json.render, Json.valueText]
    | cons e rest => simp [Json.render, Json.valueText]
  exact Text.trim_ne_nil hbrace (by decide)

namespace Settings

open Key

theorem trim_render_ne_nil {s : Settings} {format : Format} {existing : Option String} {text : String}
    (hf : format ≠ .toml) (h : s.render format existing = .ok text) : Text.trim text.toList ≠ [] := by
  cases format with
  | yaml =>
    obtain rfl := Except.ok.inj h
    rw [String.toList_ofList]
    exact Yaml.trim_render_ne_nil s.root
  | json =>
    obtain rfl := Except.ok.inj h
    rw [String.toList_ofList]
    exact Json.trim_render_ne_nil s.root
  | toml => exact absurd rfl hf

theorem parse_of_read {format : Format} {text : String} {t : Table} (path : Path)
    (hshown : Text.trim text.toList ≠ [])
    (hread : (format.readEntries? text.toList).bind Raw.table? = some t) :
    parse path format text = ofDotted t := by
  have hempty : (Text.trim text.toList).isEmpty = false := by simpa using hshown
  simp only [parse, hempty, Bool.false_eq_true, if_false, hread]

/-- Merging the table of a store without empty or dotted keys gives the store back, and so does reading
one of its renderings that a reader understands as that table. -/
theorem restored {s : Settings} (h : EntriesTidy Plain s.root) :
    ofDotted s.root = .ok s ∧
      ∀ (format : Format) (existing : Option String) (text : String) (path : Path),
        format ≠ .toml → s.render format existing = .ok text →
          (format.readEntries? text.toList).bind Raw.table? = some s.root →
            parse path format text = .ok s := by
  have hback : ofDotted s.root = .ok s := ofDotted_of_tidy h
  refine ⟨hback, fun format existing text path hf hr hread => ?_⟩
  rw [parse_of_read path (trim_render_ne_nil hf hr) hread, hback]

/-- Nested, with an empty table and a list of tables, by way of JSON. -/
theorem restored_nested :
    let s : Settings := ⟨[("b", .table [("z", .int 1), ("e", .table []), ("a", .bool true)]),
      ("a", .array [.table [("x.y", .str "t")], .table []])]⟩
    EntriesTidy Plain s.root ∧ ofDotted s.root = .ok s ∧
      ∃ text, s.render .json none = .ok text ∧
        (Format.json.readEntries? text.toList).bind Raw.table? = some s.root ∧
          parse "s.json" .json text = .ok s := by
  intro s
  have h : EntriesTidy Plain s.root := by simp [s, EntriesTidy, Value.Tidy, Plain]
  have hread : (Format.json.readEntries? (Json.render s.root)).bind Raw.table? = some s.root := by
    rfl
  have hread' : (Format.json.readEntries? (String.ofList (Json.render s.root)).toList).bind
      Raw.table? = some s.root := by
    rw [String.toList_ofList, hread]
  obtain ⟨hback, hall⟩ := restored h
  exact ⟨h, hback, _, rfl, hread', hall .json none _ "s.json" (by decide) rfl hread'⟩

end Settings
end Interview
