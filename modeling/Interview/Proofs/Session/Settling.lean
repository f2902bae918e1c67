import Interview.Proofs.Session.Lasting
import Interview.Proofs.Walk.Failures
import Interview.Proofs.Walk.Remaining
import Mathlib.Algebra.Order.BigOperators.Group.List
import Mathlib.Algebra.Order.Ring.Nat

/-! Conversations that settle. Without resets, updates and force every pass that is to be repeated and
every answer uses up a key that was still to be written, so there are never more of them than the document
has keys. -/

namespace Interview

/-- Kinds of nodes that commit a value of their own, and have the pass repeated then. -/
def Kind.commitsItself : Kind → Bool
  | branch | set => true
  | _ => false

def Walk.isKeyed (kinds : Kind → Bool) (v : WalkPath × Node) : Bool :=
  match v.2.kindAt v.1 with
  | .ok kind => kinds kind && v.2.key.isSome
  | .error _ => false

namespace Conversation

open Walk (isKeyed)

variable {a b : Conversation} {kinds : Kind → Bool}

/-- How many values are still to be committed by nodes of some kinds. -/
def owed (kinds : Kind → Bool) (nodes : List (WalkPath × Node)) (store : Settings) : Nat :=
  ((nodes.filter (isKeyed kinds)).map fun v => v.2.remaining store).sum

theorem owed_le (kinds : Kind → Bool) (nodes : List (WalkPath × Node)) (store : Settings) :
    owed kinds nodes store ≤ 2 * nodes.countP (isKeyed kinds) := by
  have hle := List.sum_le_card_nsmul ((nodes.filter (isKeyed kinds)).map fun v => v.2.remaining store) 2
  rw [List.length_map, ← List.countP_eq_length_filter, nsmul_eq_mul, Nat.cast_id, Nat.mul_comm] at hle
  refine hle fun x hx => ?_
  obtain ⟨v, -, rfl⟩ := List.mem_map.mp hx
  exact v.2.remaining_le_two store

theorem owed_anti {store after : Settings} (h : store.Keeps after fun _ => False)
    (kinds : Kind → Bool) (nodes : List (WalkPath × Node)) :
    owed kinds nodes after ≤ owed kinds nodes store :=
  List.sum_le_sum fun v _ => Node.remaining_anti h v.2

theorem owed_lt {nodes : List (WalkPath × Node)} {store after : Settings} {v : WalkPath × Node}
    {key : String} (hv : v ∈ nodes) (hkeyed : isKeyed kinds v = true)
    (h : store.Keeps after fun _ => False) (hk : v.2.storeKey .set [] none store = .ok key)
    (hs : store.contains key = false) (ha : after.contains key = true) :
    owed kinds nodes after < owed kinds nodes store :=
  List.sum_lt_sum _ _ (fun v _ => Node.remaining_anti h v.2)
    ⟨v, List.mem_filter.mpr ⟨hv, hkeyed⟩, Node.remaining_lt h hk hs ha⟩

/-- An examined document without resets, updates and force. -/
structure Quiet (a : Conversation) : Prop where
  checked : Walk.Checked a.session.progress.includes [] 0 a.session.document
  unforced : ∀ v ∈ a.nodes, v.2.force = false
  silent : ∀ v ∈ a.nodes, v.2.disabled = false →
    v.2.kindAt v.1 ≠ .ok .reset ∧ v.2.kindAt v.1 ≠ .ok .update

theorem Quiet.lasting (h : Quiet a) : Lasting a :=
  ⟨h.unforced, fun v hv hd => (h.silent v hv hd).1⟩

theorem Step.fixed (h : Step a b) (hq : Quiet a) :
    b.session.progress.includes = a.session.progress.includes ∧
      b.session.document = a.session.document ∧ b.session.ceiling = a.session.ceiling := by
  cases h with
  | @pass fs r t hs =>
    obtain rfl : (a.session.scan fs).2 = t := by rw [hs]
    exact ⟨(hq.checked.scan a.session.search fs).1, rfl, rfl⟩
  | answer _ ha =>
    obtain ⟨store, -, rfl⟩ := Session.answer_eq_ok ha
    exact ⟨rfl, rfl, rfl⟩

theorem Step.nodes_eq (h : Step a b) (hq : Quiet a) : b.nodes = a.nodes := by
  obtain ⟨hi, hd, -⟩ := h.fixed hq
  rw [nodes, nodes, hi, hd]

theorem Step.quiet (h : Step a b) (hq : Quiet a) : Quiet b := by
  obtain ⟨hi, hd, -⟩ := h.fixed hq
  have hn := h.nodes_eq hq
  refine ⟨?_, ?_, ?_⟩
  · rw [hi, hd]
    exact hq.checked
  · rw [hn]
    exact hq.unforced
  · rw [hn]
    exact hq.silent

/-- No step owes more than before, and what it adds to the past it owes no longer. -/
theorem Step.pays (h : Step a b) (hq : Quiet a) (hh : Held a) :
    b.restarts + owed Kind.commitsItself b.nodes b.session.store ≤
        a.restarts + owed Kind.commitsItself a.nodes a.session.store ∧
      b.answered.length + owed Kind.isInteractive b.nodes b.session.store ≤
        a.answered.length + owed Kind.isInteractive a.nodes a.session.store := by
  rw [h.nodes_eq hq]
  cases h with
  | @pass fs r t hs =>
    have hquiet := Walk.scan_quiet hq.checked hq.unforced hq.silent a.session.search fs
    rw [Session.exec_of_scan hs] at hquiet
    rcases hquiet with ⟨hstore, hr⟩ | ⟨v, hv, hfill⟩
    · have hrepeats : Session.repeats r = 0 := Session.repeats_eq_zero hr
      have hsame : t.store = a.session.store := hstore
      dsimp only
      rw [hrepeats, hsame]
      exact ⟨Nat.le_refl _, Nat.le_refl _⟩
    · obtain ⟨key, hk, habsent, hfound⟩ := hfill.key
      have hkeyed : isKeyed Kind.commitsItself v = true := by
        rcases hfill.kind with hk | hk <;> simp [isKeyed, hk, Kind.commitsItself, hfill.keyed]
      have hlt : owed Kind.commitsItself a.nodes t.store <
          owed Kind.commitsItself a.nodes a.session.store :=
        owed_lt hv hkeyed hfill.keeps hk habsent hfound
      have hle : owed Kind.isInteractive a.nodes t.store ≤
          owed Kind.isInteractive a.nodes a.session.store := owed_anti hfill.keeps _ _
      have hr := Session.repeats_le_one r
      dsimp only
      omega
  | @answer item reply value t hp hanswer =>
    obtain ⟨v, hv, hasks⟩ := hh.pending item hp
    obtain ⟨store, hw, rfl⟩ := Session.answer_eq_ok hanswer
    have hwrite := Item.write_ok hw
    have habsent := Walk.absent_of_isDue (hq.unforced v hv) hasks.due
    have hkeeps : a.session.store.Keeps store fun _ => False := by
      refine Settings.write_keeps hwrite (Settings.not_hasTable habsent) fun h => ?_
      rw [habsent] at h
      cases h
    have hkeyed : isKeyed Kind.isInteractive v = true := by
      simp [isKeyed, hasks.kind, hasks.interactive, hasks.keyed]
    have hlt : owed Kind.isInteractive a.nodes store <
        owed Kind.isInteractive a.nodes a.session.store :=
      owed_lt hv hkeyed hkeeps (Node.storeKey_any_kind hasks.key _ _) habsent
        (Settings.contains_write_self hwrite)
    have hle : owed Kind.commitsItself a.nodes store ≤
        owed Kind.commitsItself a.nodes a.session.store := owed_anti hkeeps _ _
    have hs : (a.session.withStore store).store = store := rfl
    dsimp only
    rw [hs, List.length_append, List.length_singleton]
    omega

theorem Leads.pays (h : Leads a b) (hq : Quiet a) (hh : Held a) :
    Quiet b ∧ Held b ∧ b.nodes = a.nodes ∧ b.session.ceiling = a.session.ceiling ∧
      b.restarts + owed Kind.commitsItself b.nodes b.session.store ≤
        a.restarts + owed Kind.commitsItself a.nodes a.session.store ∧
      b.answered.length + owed Kind.isInteractive b.nodes b.session.store ≤
        a.answered.length + owed Kind.isInteractive a.nodes a.session.store := by
  induction h with
  | refl => exact ⟨hq, hh, rfl, rfl, Nat.le_refl _, Nat.le_refl _⟩
  | @tail b c _ hs ih =>
    obtain ⟨hqb, hhb, hn, hc, hrestarts, hanswered⟩ := ih
    obtain ⟨hrestarts', hanswered'⟩ := hs.pays hqb hhb
    have hqc := hs.quiet hqb
    obtain ⟨hhc, -⟩ := hs.retains hqc.lasting hhb
    exact ⟨hqc, hhc, (hs.nodes_eq hqb).trans hn, (hs.fixed hqb).2.2.trans hc,
      hrestarts'.trans hrestarts, hanswered'.trans hanswered⟩

/-- The keyed branches and sets of a document, with the documents included so far. -/
def ownCount (s : Session) : Nat := (opening s).nodes.countP (isKeyed Kind.commitsItself)

/-- The keyed questions and notices. -/
def askedCount (s : Session) : Nat := (opening s).nodes.countP (isKeyed Kind.isInteractive)

section Bounds

variable {s t : Session} {fs : FileSystem} {patience : Nat}

theorem Leads.bounded (h : Leads (opening s) a) (hq : Quiet (opening s)) :
    a.restarts ≤ 2 * ownCount s ∧ a.answered.length ≤ 2 * askedCount s := by
  obtain ⟨-, -, -, -, hrestarts, hanswered⟩ := h.pays hq (held_opening s)
  have hc : owed Kind.commitsItself (opening s).nodes s.store ≤ 2 * ownCount s := owed_le _ _ _
  have hi : owed Kind.isInteractive (opening s).nodes s.store ≤ 2 * askedCount s := owed_le _ _ _
  have hr : (opening s).restarts = 0 := rfl
  have ha : (opening s).answered.length = 0 := rfl
  have hs : (opening s).session.store = s.store := rfl
  rw [hs] at hrestarts hanswered
  omega

theorem Leads.settles (h : Leads (opening s) a) (hq : Quiet (opening s)) {passes : Nat}
    (hp : 2 * ownCount s < passes) (fs : FileSystem) (place : WalkPath) :
    ∃ r t, Session.settle fs place passes a.session = (.settled r, t) := by
  cases hs : Session.settle fs place passes a.session with
  | mk ended t =>
    cases ended with
    | settled r => exact ⟨r, t, rfl⟩
    | restarted last =>
      have hmore := leads_settle hs (Nat.zero_lt_of_lt hp)
      have hbound : a.restarts + passes ≤ 2 * ownCount s :=
        (Leads.bounded (a := ⟨t, a.restarts + passes, a.answered, none⟩) (h.trans hmore) hq).1
      omega

theorem Leads.next_isSome (h : Leads (opening s) a) (hq : Quiet (opening s))
    (hp : 2 * ownCount s < patience) (fs : FileSystem) :
    (a.session.next fs patience).isSome := by
  unfold Session.next
  split
  · obtain ⟨r, t, hs⟩ := h.settles hq hp fs []
    rw [hs]
    rfl
  · split <;> rfl

theorem Leads.next_ne_restartLimit (h : Leads (opening s) a) (hq : Quiet (opening s))
    (hc : s.ceiling = 0 ∨ 2 * ownCount s ≤ s.ceiling) (limit : Nat) (place : WalkPath) :
    a.session.next fs patience ≠ some (.error (.restartLimit limit place), t) := by
  have hceiling : a.session.ceiling = s.ceiling := (h.pays hq (held_opening s)).2.2.2.1
  have hscan {passes : Nat} {u : Session} :
      Session.settle fs [] passes a.session ≠ (.settled (.error (.restartLimit limit place)), u) := by
    intro hs
    obtain ⟨mid, hm⟩ := Session.scan_of_settle_error hs
    exact Walk.scan_ne_restartLimit _ _ _ _ limit place (congrArg Prod.fst (Session.exec_of_scan hm))
  intro hn
  by_cases hl : a.session.ceiling = 0
  · exact hscan ((Session.next_eq_some hl).mp hn)
  · unfold Session.next at hn
    simp only [hl, if_false] at hn
    split at hn
    · next r u hs =>
      obtain ⟨rfl, rfl⟩ := Prod.mk.inj (Option.some.inj hn)
      exact hscan hs
    · next last u hs =>
      have hpasses : 2 * ownCount s < a.session.ceiling + 1 := by omega
      obtain ⟨r, v, hs'⟩ := h.settles hq hpasses fs []
      rw [hs] at hs'
      cases hs'

/-- How a run ends: nothing is left, or a pass or an answer fails. -/
def Ends (files : FileSystem) (reply : String) (patience : Nat) (t : Session) : Prop :=
  (∃ u, t.next files patience = some (.ok none, u)) ∨
    (∃ e u, t.next files patience = some (.error e, u)) ∨
    ∃ item mid e u, t.next files patience = some (.ok (some item), mid) ∧
      mid.answer item reply = (.error e, u)

theorem exists_end (hq : Quiet (opening s)) (files : Nat → FileSystem) (replies : Nat → String)
    (hp : 2 * ownCount s < patience) :
    ∃ k t, k ≤ 2 * askedCount s ∧ Session.Turns files replies s k t ∧
      Ends (files k) (replies k) patience t := by
  by_contra hnone
  -- a run that does not end goes on for more turns than there are answers to give
  have hruns : ∀ k ≤ 2 * askedCount s + 1, ∃ t, Session.Turns files replies s k t := by
    intro k
    induction k with
    | zero => exact fun _ => ⟨s, .none⟩
    | succ k ih =>
      intro hk
      obtain ⟨t, ht⟩ := ih (by omega)
      obtain ⟨restarts, answered, hl, -⟩ := leads_turns ht
      obtain ⟨⟨r, mid⟩, hn⟩ := Option.isSome_iff_exists.mp (hl.next_isSome hq hp (files k))
      have hgoes : ¬ Ends (files k) (replies k) patience t :=
        fun he => hnone ⟨k, t, by omega, ht, he⟩
      rcases r with e | item
      · exact absurd (.inr (.inl ⟨e, mid, hn⟩)) hgoes
      · cases item with
        | none => exact absurd (.inl ⟨mid, hn⟩) hgoes
        | some item =>
          cases ha : mid.answer item (replies k) with
          | mk outcome u =>
            cases outcome with
            | error e => exact absurd (.inr (.inr ⟨item, mid, e, u, hn, ha⟩)) hgoes
            | ok value => exact ⟨u, ht.turn hn ha⟩
  obtain ⟨t, ht⟩ := hruns _ (Nat.le_refl _)
  obtain ⟨restarts, answered, hl, hk⟩ := leads_turns ht
  have hbound : answered.length ≤ 2 * askedCount s := (hl.bounded hq).2
  omega

/-- Once a document without resets, updates and force has passed its examination, a conversation about it
settles: its passes are repeated at most twice for each key of a branch or a set, it answers at most two
items for each key of a question or a notice, every call returns, none for the limit on repeated passes
unless that is lower, and whatever the replies are, the run ends. -/
theorem settles_after_check (h : s.check fs = (.ok (), t))
    (hf : ∀ v ∈ (opening t).nodes, v.2.force = false)
    (hd : ∀ v ∈ (opening t).nodes, v.2.disabled = false →
      v.2.kindAt v.1 ≠ .ok .reset ∧ v.2.kindAt v.1 ≠ .ok .update) :
    (∀ a, Leads (opening t) a →
      a.restarts ≤ 2 * ownCount t ∧ a.answered.length ≤ 2 * askedCount t ∧
      (∀ files patience, 2 * ownCount t < patience → (a.session.next files patience).isSome) ∧
      (t.ceiling = 0 ∨ 2 * ownCount t ≤ t.ceiling → ∀ files patience limit place u,
        a.session.next files patience ≠ some (.error (.restartLimit limit place), u))) ∧
    ∀ files replies patience, 2 * ownCount t < patience →
      ∃ k u, k ≤ 2 * askedCount t ∧ Session.Turns files replies t k u ∧
        Ends (files k) (replies k) patience u := by
  obtain ⟨q, hc, hi, -, hdoc, -⟩ := Session.check_eq_ok h
  have hq : Quiet (opening t) := by
    refine ⟨?_, hf, hd⟩
    have hchecked := Walk.check_checked hc
    rwa [← hi, ← hdoc] at hchecked
  refine ⟨fun a hl => ?_, fun files replies patience => exists_end hq files replies⟩
  obtain ⟨hrestarts, hanswered⟩ := hl.bounded hq
  exact ⟨hrestarts, hanswered, fun files patience hp => hl.next_isSome hq hp files,
    fun hceiling files patience limit place u => hl.next_ne_restartLimit hq hceiling limit place⟩

end Bounds

def form : List Node :=
  [{ kind := some "set", key := some "n", title := some "N", text := some "N", value := some (.int 1) },
    { kind := some "question", key := some "a", title := some "A", text := some "A",
      parameterize := some "n" }]

def formSession : Session where
  document := form
  unknownFields := []
  search := .none
  ceiling := 0
  strict := false
  progress := ⟨.empty, .empty, []⟩

theorem settles_after_check_of_form :
    (formSession.check ⟨[], []⟩).1 = .ok () ∧
      ∀ a, Leads (opening (formSession.check ⟨[], []⟩).2) a →
        a.restarts ≤ 2 ∧ a.answered.length ≤ 2 := by
  have hcheck : formSession.check ⟨[], []⟩ = (.ok (), (formSession.check ⟨[], []⟩).2) := rfl
  have hnodes : (opening (formSession.check ⟨[], []⟩).2).nodes =
      [([0], form[0]), ([1], form[1])] := rfl
  have hkinds : Kind.ofName? "set" = some .set ∧ Kind.ofName? "question" = some .question := ⟨rfl, rfl⟩
  have hown : ownCount (formSession.check ⟨[], []⟩).2 = 1 := rfl
  have hasked : askedCount (formSession.check ⟨[], []⟩).2 = 1 := rfl
  obtain ⟨hbounds, -⟩ := settles_after_check hcheck (by simp [hnodes, form])
    (by simp [hnodes, form, Node.kindAt, hkinds])
  refine ⟨rfl, fun a ha => ?_⟩
  obtain ⟨hrestarts, hanswered, -⟩ := hbounds a ha
  rw [hown] at hrestarts
  rw [hasked] at hanswered
  exact ⟨hrestarts, hanswered⟩

end Conversation
end Interview
