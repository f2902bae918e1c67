import Interview.Proofs.Session.Regardless
import Interview.Proofs.Walk.Ledger
import Interview.Session.Opening

/-! Examinations of a session at different times. Passes, answers and earlier examinations open documents
and change the store; what an examination says of the document stays the same as long as the files do. -/

namespace Interview

namespace Session

variable {fs : FileSystem} {s t u : Session}

/-- What may happen to a session before it is examined. Each may fail, and what was done until then stays
done. -/
inductive Move (fs : FileSystem) (s : Session) : Session → Prop
  | scan {r : Except Error Scan} {t : Session} : s.scan fs = (r, t) → Move fs s t
  | answer {item : Item} {reply : String} {r : Except Error Value} {t : Session} :
    s.answer item reply = (r, t) → Move fs s t
  | check {r : Except Error Unit} {t : Session} : s.check fs = (r, t) → Move fs s t
  | store (store : Settings) : Move fs s (s.withStore store)

abbrev Moves (fs : FileSystem) : Session → Session → Prop := Relation.ReflTransGen (Move fs)

theorem moves_settle {passes : Nat} {place : WalkPath} {ended : Settling}
    (h : settle fs place passes s = (ended, t)) : Moves fs s t := by
  induction passes generalizing place s with
  | zero =>
    obtain ⟨-, rfl⟩ := Prod.mk.inj h
    exact .refl
  | succ passes ih =>
    unfold settle at h
    cases hs : s.scan fs with
    | mk r mid =>
      have hmove : Moves fs s mid := .single (.scan hs)
      rw [hs] at h
      rcases r with e | scan
      · obtain ⟨-, rfl⟩ := Prod.mk.inj h
        exact hmove
      · cases scan with
        | restart at_ => exact hmove.trans (ih h)
        | _ =>
          obtain ⟨-, rfl⟩ := Prod.mk.inj h
          exact hmove

theorem moves_next {patience : Nat} {r : Except Error (Option Item)}
    (h : s.next fs patience = some (r, t)) : Moves fs s t := by
  unfold next at h
  split at h
  · cases hs : settle fs [] patience s with
    | mk ended mid =>
      rw [hs] at h
      cases ended with
      | restarted place => cases h
      | settled r' =>
        obtain ⟨-, rfl⟩ := Prod.mk.inj (Option.some.inj h)
        exact moves_settle hs
  · cases hs : settle fs [] (s.ceiling + 1) s with
    | mk ended mid =>
      rw [hs] at h
      have hmoves := moves_settle hs
      cases ended with
      | restarted place =>
        obtain ⟨-, rfl⟩ := Prod.mk.inj (Option.some.inj h)
        exact hmoves
      | settled r' =>
        obtain ⟨-, rfl⟩ := Prod.mk.inj (Option.some.inj h)
        exact hmoves

/-- The same session with more documents opened, and whatever store. -/
structure Grows (fs : FileSystem) (s t : Session) : Prop where
  document : t.document = s.document
  unknownFields : t.unknownFields = s.unknownFields
  search : t.search = s.search
  strict : t.strict = s.strict
  explores : Walk.Explores s.search fs s.document (fun _ => True) s.progress.includes t.progress.includes

namespace Grows

theorem refl (fs : FileSystem) (s : Session) : Grows fs s s := ⟨rfl, rfl, rfl, rfl, .refl⟩

theorem trans (h : Grows fs s t) (h' : Grows fs t u) : Grows fs s u := by
  obtain ⟨hdoc, hfields, hsearch, hstrict, hx⟩ := h
  obtain ⟨hdoc', hfields', hsearch', hstrict', hx'⟩ := h'
  rw [hdoc, hsearch] at hx'
  exact ⟨hdoc'.trans hdoc, hfields'.trans hfields, hsearch'.trans hsearch, hstrict'.trans hstrict,
    hx.trans hx'⟩

end Grows

theorem Move.grows (h : Move fs s t) : Grows fs s t := by
  cases h with
  | scan h =>
    obtain ⟨-, rfl⟩ := Prod.mk.inj h
    exact ⟨rfl, rfl, rfl, rfl, Walk.scan_explores s.search fs s.document s.progress⟩
  | answer h =>
    obtain ⟨-, rfl⟩ := Prod.mk.inj h
    exact ⟨rfl, rfl, rfl, rfl, .refl⟩
  | check h =>
    obtain ⟨log, rfl⟩ := check_session h
    exact ⟨rfl, rfl, rfl, rfl, Walk.check_explores s.search fs s.document s.progress⟩
  | store store => exact ⟨rfl, rfl, rfl, rfl, .refl⟩

theorem Moves.grows (h : Moves fs s t) : Grows fs s t := by
  induction h with
  | refl => exact .refl fs s
  | tail _ hm ih => exact ih.trans hm.grows

/-- Results of two examinations that differ at most in the order in which they list unknown fields. -/
inductive SameVerdict : Except Error Unit → Except Error Unit → Prop
  | same (r : Except Error Unit) : SameVerdict r r
  | reordered {fields fields' : List String} : fields.Perm fields' →
    SameVerdict (.error (.unknownFields fields)) (.error (.unknownFields fields'))

/-- What becomes of an examination that found these unknown fields and nothing else. -/
def verdict (strict : Bool) (fields : List String) : Except Error Unit :=
  if strict && !fields.isEmpty then .error (.unknownFields fields) else .ok ()

theorem verdict_perm (strict : Bool) {fields fields' : List String} (h : fields.Perm fields') :
    SameVerdict (verdict strict fields) (verdict strict fields') := by
  have hempty : fields'.isEmpty = fields.isEmpty := by
    rw [Bool.eq_iff_iff, List.isEmpty_iff, List.isEmpty_iff]
    exact ⟨fun he => List.perm_nil.mp (he ▸ h), fun he => List.nil_perm.mp (he ▸ h)⟩
  unfold verdict
  rw [hempty]
  split
  · exact .reordered h
  · exact .same _

theorem check_error {e : Error} {q : Progress}
    (h : (Walk.check s.search fs s.document).exec s.progress = (.error e, q)) :
    (s.check fs).1 = .error e := by
  unfold check
  rw [perform_eq h]

theorem check_ok {q : Progress}
    (h : (Walk.check s.search fs s.document).exec s.progress = (.ok (), q)) :
    (s.check fs).1 = verdict s.strict (s.unknownFields ++ q.includes.unknownFields) := by
  unfold check verdict
  rw [perform_eq h]
  by_cases hf : (s.strict && !(s.unknownFields ++ q.includes.unknownFields).isEmpty) = true
  · rw [if_pos hf]
    exact congrArg Prod.fst (if_pos hf)
  · rw [if_neg hf]
    exact congrArg Prod.fst (if_neg hf)

theorem check_grows {root : Option Path} (hs : s.progress.includes = .rootedAt fs root)
    (h : Grows fs s t) : SameVerdict (t.check fs).1 (s.check fs).1 := by
  obtain ⟨hdoc, hfields, hsearch, hstrict, hx⟩ := h
  obtain ⟨hanswer, hperm⟩ := Walk.check_filled hs hx
  cases he : (Walk.check s.search fs s.document).exec s.progress with
  | mk r q =>
    cases he' : (Walk.check s.search fs s.document).exec t.progress with
    | mk r' q' =>
      rw [he, he'] at hanswer hperm
      obtain rfl : r' = r := hanswer
      rw [← hdoc, ← hsearch] at he'
      cases r' with
      | error e =>
        rw [check_error he, check_error he']
        exact .same _
      | ok u =>
        rw [check_ok he, check_ok he', hstrict, hfields]
        exact verdict_perm s.strict ((hperm rfl).append_left s.unknownFields)

theorem check_again {c : Session} (hn : Walk.Nested s.document s.progress.includes)
    (h : s.check fs = (.ok (), c)) :
    ∃ d, c.check fs = (.ok (), d) ∧ d.progress.includes = c.progress.includes ∧
      d.allUnknownFields = c.allUnknownFields := by
  obtain ⟨q, hexec, hincludes, -, hdoc, hsearch, -⟩ := check_eq_ok h
  obtain ⟨r, hagain, hsame⟩ := Walk.check_again hexec hn hincludes
  rw [← hsearch, ← hdoc] at hagain
  have hfirst := check_ok hexec
  have hsecond := check_ok hagain
  obtain ⟨log, hc⟩ := check_session h
  have hkept : c.strict = s.strict ∧ c.unknownFields = s.unknownFields := by
    rw [hc]
    exact ⟨rfl, rfl⟩
  rw [hkept.1, hkept.2, hsame, ← hfirst, h] at hsecond
  cases hd : c.check fs with
  | mk answer d =>
    rw [hd] at hsecond
    obtain rfl : answer = .ok () := hsecond
    obtain ⟨log', rfl⟩ := check_session hd
    rw [hagain]
    have hcache : r.includes = c.progress.includes := hsame.trans hincludes.symm
    refine ⟨_, rfl, hcache, ?_⟩
    simp only [allUnknownFields, hcache]

/-- An examination says the same of a document whenever it is made, and whatever passes, answers and
examinations there were before; only the order may differ in which it lists unknown fields. After one that
went well another one goes well too, and opens nothing. -/
theorem check_same_at_any_time (o : Opening) (fs : FileSystem) (d : Document) (search : SearchPath)
    (origin : Option Path) (log : List Event) {t : Session}
    (h : Moves fs (o.session fs d search origin log) t) :
    SameVerdict (t.check fs).1 ((o.session fs d search origin log).check fs).1 ∧
    ∀ c, t.check fs = (.ok (), c) → ∃ again, c.check fs = (.ok (), again) ∧
      again.progress.includes = c.progress.includes ∧ again.allUnknownFields = c.allUnknownFields := by
  have hg := h.grows
  have hn : Walk.Nested t.document t.progress.includes := by
    rw [hg.document]
    exact (Walk.Nested.empty fs origin).explores hg.explores
  exact ⟨check_grows rfl hg, fun c => check_again hn⟩

/-- A call has opened the included document, and the document itself has a field that is unknown. -/
theorem check_same_at_any_time_after_call :
    let s := Opening.session { ceiling := 0 } Walk.loneFile ⟨[Walk.loneInclude], ["color"]⟩ .none none []
    ∃ t c again, s.next Walk.loneFile 2 = some (.ok none, t) ∧ t.progress.includes = Walk.loneCache [0] ∧
      SameVerdict (t.check Walk.loneFile).1 (s.check Walk.loneFile).1 ∧
      t.check Walk.loneFile = (.ok (), c) ∧ c.check Walk.loneFile = (.ok (), again) ∧
      again.progress.includes = c.progress.includes ∧ again.allUnknownFields = ["color"] := by
  intro s
  let t : Session := { s with
    progress := ⟨.empty, Walk.loneCache [0], [.included "/a.json" 0 [0]]⟩ }
  have hopens : (Walk.scan .none Walk.loneFile [Walk.loneInclude]).exec s.progress =
      (.ok (.restart [0]), t.progress) := by
    show (Walk.scan .none Walk.loneFile [Walk.loneInclude]).exec ⟨.empty, .empty, []⟩ = _
    rw [Walk.exec_scan, Walk.exec_scanFrom_cons, List.nil_append, Walk.exec_scanAt_loneFile]
    rfl
  have hscan : s.scan Walk.loneFile = (.ok (.restart [0]), t) := perform_eq hopens
  have hdone : t.scan Walk.loneFile = (.ok .exhausted, t) := rfl
  have hnext : s.next Walk.loneFile 2 = some (.ok none, t) := by
    rw [next_eq_some rfl]
    simp only [settle, hscan, hdone]
  obtain ⟨hsame, hagain⟩ := check_same_at_any_time { ceiling := 0 } Walk.loneFile
    ⟨[Walk.loneInclude], ["color"]⟩ .none none [] (moves_next hnext)
  have hcheck : t.check Walk.loneFile = (.ok (), t.report (.checked 1 1)) := rfl
  obtain ⟨again, hc, hcache, hfields⟩ := hagain _ hcheck
  exact ⟨t, _, again, hnext, rfl, hsame, hcheck, hc, hcache, hfields⟩

end Session
end Interview
