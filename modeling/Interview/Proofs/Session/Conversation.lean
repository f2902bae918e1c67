import Interview.Proofs.Walk.Retention
import Interview.Session.Basic

/-! Conversations with a session, pass by pass. A call of `next` is a number of passes that repeat and one
more that does not, unless the limit is reached first. -/

namespace Interview

namespace Session

variable {s t : Session}

theorem exec_of_scan {fs : FileSystem} {r : Except Error Scan} (h : s.scan fs = (r, t)) :
    (Walk.scan s.search fs s.document).exec s.progress = (r, t.progress) := by
  obtain ⟨rfl, rfl⟩ := Prod.mk.inj h
  rfl

theorem answer_eq_ok {item : Item} {reply : String} {value : Value}
    (h : s.answer item reply = (.ok value, t)) :
    ∃ store, item.write s.store (some (.str reply)) = (.ok value, store) ∧ t = s.withStore store := by
  unfold answer commit at h
  cases hw : item.write s.store (some (.str reply)) with
  | mk r store =>
    rw [hw] at h
    obtain ⟨rfl, rfl⟩ := Prod.mk.inj h
    exact ⟨store, rfl, rfl⟩

/-- How often a pass is to be repeated for what it did. -/
def repeats : Except Error Scan → Nat
  | .ok (.restart _) => 1
  | _ => 0

theorem repeats_le_one (r : Except Error Scan) : repeats r ≤ 1 := by
  unfold repeats
  split
  · exact Nat.le_refl 1
  · exact Nat.zero_le 1

theorem repeats_eq_zero {r : Except Error Scan} (h : ∀ place, r ≠ .ok (.restart place)) :
    repeats r = 0 := by
  unfold repeats
  split
  · exact absurd rfl (h _)
  · rfl

def foundIn : Except Error Scan → Option Item
  | .ok (.found item) => some item
  | _ => none

theorem perform_eq {α : Type} {w : Walk α} {r : Except Error α} {q : Progress}
    (h : w.exec s.progress = (r, q)) : s.perform w = (r, { s with progress := q }) := by
  show ((w.exec s.progress).1, { s with progress := (w.exec s.progress).2 }) = _
  rw [h]

theorem check_session {fs : FileSystem} {r : Except Error Unit} (h : s.check fs = (r, t)) :
    ∃ log, t = { s with
      progress := { ((Walk.check s.search fs s.document).exec s.progress).2 with log := log } } := by
  unfold check at h
  cases hc : (Walk.check s.search fs s.document).exec s.progress with
  | mk outcome q =>
    rw [perform_eq hc] at h
    cases outcome with
    | error e =>
      obtain ⟨-, rfl⟩ := Prod.mk.inj h
      exact ⟨_, rfl⟩
    | ok u =>
      dsimp only at h
      split at h
      · obtain ⟨-, rfl⟩ := Prod.mk.inj h
        exact ⟨_, rfl⟩
      · obtain ⟨-, rfl⟩ := Prod.mk.inj h
        exact ⟨_, rfl⟩

theorem check_eq_ok {fs : FileSystem} (h : s.check fs = (.ok (), t)) :
    ∃ q, (Walk.check s.search fs s.document).exec s.progress = (.ok (), q) ∧
      t.progress.includes = q.includes ∧ t.store = q.store ∧ t.document = s.document ∧
      t.search = s.search ∧ t.ceiling = s.ceiling := by
  unfold check at h
  cases hc : (Walk.check s.search fs s.document).exec s.progress with
  | mk r q =>
    rw [perform_eq hc] at h
    cases r with
    | error e => cases (Prod.mk.inj h).1
    | ok u =>
      dsimp only at h
      split at h
      · cases (Prod.mk.inj h).1
      · obtain ⟨-, rfl⟩ := Prod.mk.inj h
        exact ⟨q, rfl, rfl, rfl, rfl, rfl, rfl⟩

theorem next_eq_some {patience : Nat} {r : Except Error (Option Item)} (h : s.ceiling = 0) :
    s.next fs patience = some (r, t) ↔ settle fs [] patience s = (.settled r, t) := by
  unfold next
  simp only [h, if_true]
  cases settle fs [] patience s with
  | mk ended mid => cases ended <;> simp

theorem scan_of_settle_error {fs : FileSystem} {passes : Nat} {place : WalkPath} {e : Error}
    (h : settle fs place passes s = (.settled (.error e), t)) : ∃ mid : Session, mid.scan fs = (.error e, t) := by
  induction passes generalizing place s with
  | zero => cases h
  | succ passes ih =>
    unfold settle at h
    cases hs : s.scan fs with
    | mk r mid =>
      rw [hs] at h
      rcases r with e' | scan
      · obtain ⟨he, rfl⟩ := Prod.mk.inj h
        cases he
        exact ⟨s, hs⟩
      · cases scan with
        | restart at_ => exact ih h
        | _ => cases h

/-- Items that were found and answered, one after the other, with the files and the replies of each turn. -/
inductive Turns (files : Nat → FileSystem) (replies : Nat → String) (s : Session) : Nat → Session → Prop
  | none : Turns files replies s 0 s
  | turn {k patience : Nat} {t mid u : Session} {item : Item} {value : Value} :
    Turns files replies s k t → t.next (files k) patience = some (.ok (some item), mid) →
    mid.answer item (replies k) = (.ok value, u) → Turns files replies s (k + 1) u

theorem foundIn_eq_some {r : Except Error Scan} {item : Item} (h : foundIn r = some item) :
    r = .ok (.found item) := by
  rcases r with e | scan
  · cases h
  · cases scan <;> cases h
    rfl

def itemOf : Except Error (Option Item) → Option Item
  | .ok item => item
  | .error _ => none

end Session

/-- A session together with its past: how many passes were to be repeated, which keys were answered, and
the item that the last pass found, if it is still to be answered. -/
structure Conversation where
  session : Session
  restarts : Nat
  answered : List String
  pending : Option Item

namespace Conversation

def opening (s : Session) : Conversation := ⟨s, 0, [], none⟩

def nodes (a : Conversation) : List (WalkPath × Node) :=
  Walk.tree a.session.progress.includes a.session.document

/-- One more pass, or an answer to the item that the last one found. -/
inductive Step (a : Conversation) : Conversation → Prop
  | pass {fs : FileSystem} {r : Except Error Scan} {t : Session} :
    a.session.scan fs = (r, t) →
    Step a ⟨t, a.restarts + Session.repeats r, a.answered, Session.foundIn r⟩
  | answer {item : Item} {reply : String} {value : Value} {t : Session} :
    a.pending = some item → a.session.answer item reply = (.ok value, t) →
    Step a ⟨t, a.restarts, a.answered ++ [item.key], none⟩

abbrev Leads := Relation.ReflTransGen Step

open Session (Settling itemOf)

theorem leads_settle {a : Conversation} {fs : FileSystem} {passes : Nat} {place : WalkPath}
    {ended : Settling} {t : Session} (h : Session.settle fs place passes a.session = (ended, t)) :
    match ended with
    | .settled r => ∃ more, more < passes ∧ Leads a ⟨t, a.restarts + more, a.answered, itemOf r⟩
    | .restarted _ => 0 < passes → Leads a ⟨t, a.restarts + passes, a.answered, none⟩ := by
  induction passes generalizing place a with
  | zero =>
    obtain ⟨rfl, -⟩ := Prod.mk.inj h
    exact fun h => absurd h (Nat.lt_irrefl 0)
  | succ passes ih =>
    unfold Session.settle at h
    cases hscan : a.session.scan fs with
    | mk r mid =>
      have hstep : Leads a ⟨mid, a.restarts + Session.repeats r, a.answered, Session.foundIn r⟩ :=
        .single (.pass hscan)
      rw [hscan] at h
      rcases r with e | scan
      · obtain ⟨rfl, rfl⟩ := Prod.mk.inj h
        exact ⟨0, Nat.succ_pos _, hstep⟩
      · cases scan with
        | found item =>
          obtain ⟨rfl, rfl⟩ := Prod.mk.inj h
          exact ⟨0, Nat.succ_pos _, hstep⟩
        | exhausted =>
          obtain ⟨rfl, rfl⟩ := Prod.mk.inj h
          exact ⟨0, Nat.succ_pos _, hstep⟩
        | restart at_ =>
          have hrest := ih (a := ⟨mid, a.restarts + 1, a.answered, none⟩) h
          cases ended with
          | settled r =>
            obtain ⟨more, hlt, hc⟩ := hrest
            refine ⟨more + 1, Nat.succ_lt_succ hlt, hstep.trans ?_⟩
            rwa [Nat.add_comm more 1, ← Nat.add_assoc]
          | restarted last =>
            intro _
            cases passes with
            | zero =>
              obtain ⟨-, rfl⟩ := Prod.mk.inj h
              exact hstep
            | succ passes =>
              have hc := hrest (Nat.succ_pos _)
              refine hstep.trans ?_
              rwa [Nat.add_comm (passes + 1) 1, ← Nat.add_assoc]

theorem leads_next {a : Conversation} {fs : FileSystem} {patience : Nat}
    {r : Except Error (Option Item)} {t : Session}
    (h : a.session.next fs patience = some (r, t)) :
    ∃ more, Leads a ⟨t, a.restarts + more, a.answered, itemOf r⟩ := by
  by_cases hl : a.session.ceiling = 0
  · obtain ⟨more, -, hc⟩ := leads_settle ((Session.next_eq_some hl).mp h)
    exact ⟨more, hc⟩
  · unfold Session.next at h
    simp only [hl, if_false] at h
    cases hs : Session.settle fs [] (a.session.ceiling + 1) a.session with
    | mk ended mid =>
      rw [hs] at h
      have hc := leads_settle hs
      cases ended with
      | restarted place =>
        obtain ⟨rfl, rfl⟩ := Prod.mk.inj (Option.some.inj h)
        exact ⟨a.session.ceiling + 1, hc (Nat.succ_pos _)⟩
      | settled r' =>
        obtain ⟨rfl, rfl⟩ := Prod.mk.inj (Option.some.inj h)
        obtain ⟨more, -, hc⟩ := hc
        exact ⟨more, hc⟩

theorem leads_turns {files : Nat → FileSystem} {replies : Nat → String} {s t : Session} {k : Nat}
    (h : Session.Turns files replies s k t) :
    ∃ restarts answered, Leads (opening s) ⟨t, restarts, answered, none⟩ ∧ answered.length = k := by
  induction h with
  | none => exact ⟨0, [], .refl, rfl⟩
  | @turn k patience t mid u item value _ hn ha ih =>
    obtain ⟨restarts, answered, hl, hk⟩ := ih
    obtain ⟨more, hm⟩ := leads_next (a := ⟨t, restarts, answered, none⟩) hn
    refine ⟨_, answered ++ [item.key], (hl.trans hm).tail (.answer rfl ha), ?_⟩
    rw [List.length_append, hk, List.length_singleton]

theorem Step.nodes_subset {a b : Conversation} (h : Step a b) : a.nodes ⊆ b.nodes := by
  intro v hv
  cases h with
  | @pass fs r t hs =>
    obtain rfl : (a.session.scan fs).2 = t := by rw [hs]
    exact Walk.mem_tree_grown (Walk.scan_explores _ fs _ _).grown hv
  | answer _ ha =>
    obtain ⟨store, -, rfl⟩ := Session.answer_eq_ok ha
    exact hv

theorem Leads.nodes_subset {a b : Conversation} (h : Leads a b) : a.nodes ⊆ b.nodes := by
  induction h with
  | refl => exact List.Subset.refl _
  | tail _ hs ih => exact List.Subset.trans ih hs.nodes_subset

end Conversation
end Interview
