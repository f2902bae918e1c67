import Interview.Proofs.Session.Exchange
import Interview.Proofs.Walk.Failures

/-! Sessions with a limit on repeated passes. A call makes at most one pass more than the limit allows to be
repeated, and a run on scripted replies uses up a reply for each item, so both come to an end whatever the
document is. -/

namespace Interview

namespace Session

/-- What a call of `next` makes of a pass, unless the pass is to be repeated. -/
def resultOf : Except Error Scan → Option (Except Error (Option Item))
  | .error e => some (.error e)
  | .ok (.found item) => some (.ok (some item))
  | .ok .exhausted => some (.ok none)
  | .ok (.restart _) => none

inductive Repeats (fs : FileSystem) : Nat → Session → Session → Prop
  | none (s : Session) : Repeats fs 0 s s
  | pass {k : Nat} {s mid t : Session} {place : WalkPath} :
    s.scan fs = (.ok (.restart place), mid) → Repeats fs k mid t → Repeats fs (k + 1) s t

/-- A call of `next` with the number of its passes: all but the last one are to be repeated, and that one
as well if it is one too many. -/
inductive Call (fs : FileSystem) (s : Session) : Nat → Except Error (Option Item) → Session → Prop
  | settled {k : Nat} {mid t : Session} {r : Except Error Scan} {result : Except Error (Option Item)} :
    k ≤ s.ceiling → Repeats fs k s mid → mid.scan fs = (r, t) → resultOf r = some result →
    Call fs s (k + 1) result t
  | limited {mid t : Session} {place : WalkPath} :
    Repeats fs s.ceiling s mid → mid.scan fs = (.ok (.restart place), t) →
    Call fs s (s.ceiling + 1) (.error (.restartLimit s.ceiling place)) t

variable {fs : FileSystem} {k n patience : Nat} {s mid t : Session} {place last : WalkPath}
  {r : Except Error Scan} {result : Except Error (Option Item)}

theorem resultOf_eq_none : resultOf r = none ↔ ∃ place, r = .ok (.restart place) := by
  rcases r with e | scan
  · simp [resultOf]
  · cases scan <;> simp [resultOf]

theorem resultOf_eq_error {e : Error} : resultOf r = some (.error e) ↔ r = .error e := by
  rcases r with e' | scan
  · simp [resultOf]
  · cases scan <;> simp [resultOf]

theorem settle_of_resultOf (hs : s.scan fs = (r, t)) (hr : resultOf r = some result) (place : WalkPath)
    (n : Nat) : settle fs place (n + 1) s = (.settled result, t) := by
  rw [settle, hs]
  rcases r with e | scan
  · cases hr
    rfl
  · cases scan with
    | restart at_ => cases hr
    | found item =>
      cases hr
      rfl
    | exhausted =>
      cases hr
      rfl

theorem settle_of_restart (hs : s.scan fs = (.ok (.restart last), mid)) (place : WalkPath) (n : Nat) :
    settle fs place (n + 1) s = settle fs last n mid := by
  rw [settle, hs]

theorem Repeats.settle_eq (h : Repeats fs k s mid) (hs : mid.scan fs = (r, t))
    (hr : resultOf r = some result) (hk : k < n) (place : WalkPath) :
    settle fs place n s = (.settled result, t) := by
  induction h generalizing n place with
  | none s =>
    obtain ⟨n, rfl⟩ := Nat.exists_eq_add_of_lt hk
    rw [Nat.zero_add]
    exact settle_of_resultOf hs hr place n
  | @pass k s next mid at_ hscan _ ih =>
    obtain ⟨m, rfl⟩ : ∃ m, n = m + 1 := ⟨n - 1, by omega⟩
    rw [settle_of_restart hscan]
    exact ih hs (by omega) at_

theorem Repeats.settle_restarted (h : Repeats fs k s mid) (hs : mid.scan fs = (.ok (.restart last), t))
    (place : WalkPath) : settle fs place (k + 1) s = (.restarted last, t) := by
  induction h generalizing place with
  | none s => exact settle_of_restart hs place 0
  | @pass k s next mid at_ hscan _ ih =>
    rw [settle_of_restart hscan]
    exact ih hs at_

theorem repeats_or_settled (fs : FileSystem) (n : Nat) (s : Session) :
    (∃ k mid r t result, k < n ∧ Repeats fs k s mid ∧ mid.scan fs = (r, t) ∧ resultOf r = some result) ∨
      ∃ mid, Repeats fs n s mid := by
  induction n generalizing s with
  | zero => exact .inr ⟨s, .none s⟩
  | succ n ih =>
    cases hs : s.scan fs with
    | mk r next =>
      cases hr : resultOf r with
      | some result => exact .inl ⟨0, s, r, next, result, Nat.succ_pos n, .none s, hs, hr⟩
      | none =>
        obtain ⟨place, rfl⟩ := resultOf_eq_none.mp hr
        rcases ih next with ⟨k, mid, r, t, result, hk, hrepeats, hscan, hr⟩ | ⟨mid, hrepeats⟩
        · exact .inl ⟨k + 1, mid, r, t, result, Nat.succ_lt_succ hk, .pass hs hrepeats, hscan, hr⟩
        · exact .inr ⟨mid, .pass hs hrepeats⟩

theorem Call.passes_le (h : Call fs s k result t) : k ≤ s.ceiling + 1 := by
  cases h with
  | settled hk => exact Nat.succ_le_succ hk
  | limited => exact Nat.le_refl _

theorem exists_call (fs : FileSystem) (s : Session) : ∃ k result t, Call fs s k result t := by
  rcases repeats_or_settled fs s.ceiling s with ⟨k, mid, r, t, result, hk, hrepeats, hs, hr⟩ | ⟨mid, h⟩
  · exact ⟨k + 1, result, t, .settled (Nat.le_of_lt hk) hrepeats hs hr⟩
  · cases hs : mid.scan fs with
    | mk r t =>
      cases hr : resultOf r with
      | some result => exact ⟨s.ceiling + 1, result, t, .settled (Nat.le_refl _) h hs hr⟩
      | none =>
        obtain ⟨place, rfl⟩ := resultOf_eq_none.mp hr
        exact ⟨_, _, t, .limited h hs⟩

theorem Repeats.ceiling_eq (h : Repeats fs k s t) : t.ceiling = s.ceiling := by
  induction h with
  | none s => rfl
  | @pass k s mid t place hs _ ih =>
    obtain ⟨-, rfl⟩ := Prod.mk.inj hs
    exact ih

theorem Call.ceiling_eq (h : Call fs s k result t) : t.ceiling = s.ceiling := by
  cases h with
  | settled _ hrepeats hs _ =>
    obtain ⟨-, rfl⟩ := Prod.mk.inj hs
    exact hrepeats.ceiling_eq
  | limited hrepeats hs =>
    obtain ⟨-, rfl⟩ := Prod.mk.inj hs
    exact hrepeats.ceiling_eq

theorem Call.next_eq (h : Call fs s k result t) (hc : s.ceiling ≠ 0) (patience : Nat) :
    s.next fs patience = some (result, t) := by
  unfold next
  cases h with
  | settled hk hrepeats hs hr => simp [hc, hrepeats.settle_eq hs hr (Nat.lt_succ_of_le hk)]
  | limited hrepeats hs =>
    have hceiling : t.ceiling = s.ceiling := (Call.limited hrepeats hs).ceiling_eq
    simp [hc, hrepeats.settle_restarted hs, hceiling]

theorem next_eq_some_iff (hc : s.ceiling ≠ 0) :
    s.next fs patience = some (result, t) ↔ ∃ k, Call fs s k result t := by
  constructor
  · intro h
    obtain ⟨k, result', t', hcall⟩ := exists_call fs s
    rw [hcall.next_eq hc patience] at h
    obtain ⟨rfl, rfl⟩ := Prod.mk.inj (Option.some.inj h)
    exact ⟨k, hcall⟩
  · rintro ⟨k, hcall⟩
    exact hcall.next_eq hc patience

theorem next_restartLimit_iff (hc : s.ceiling ≠ 0) (limit : Nat) :
    s.next fs patience = some (.error (.restartLimit limit place), t) ↔
      limit = s.ceiling ∧ ∃ mid, Repeats fs s.ceiling s mid ∧ mid.scan fs = (.ok (.restart place), t) := by
  rw [next_eq_some_iff hc]
  constructor
  · rintro ⟨k, hcall⟩
    cases hcall with
    | @settled k mid t r _ _ _ hs hr =>
      -- the limit is not an error of a pass
      obtain rfl := resultOf_eq_error.mp hr
      exact absurd (congrArg Prod.fst (exec_of_scan hs)) (Walk.scan_ne_restartLimit _ _ _ _ limit place)
    | limited hrepeats hs => exact ⟨rfl, _, hrepeats, hs⟩
  · rintro ⟨rfl, mid, hrepeats, hs⟩
    exact ⟨s.ceiling + 1, .limited hrepeats hs⟩

end Session

namespace Run

variable {σ : Type}

/-- The rest of a run, after so many answers, with the number of passes that its calls of `next` make. -/
inductive Ends (fs : FileSystem) (src : AnswerSource σ) (options : RunOptions) :
    Nat → RunState σ → Nat → Except Error RunOutcome × RunState σ → Prop
  | failed {answered passes : Nat} {r : RunState σ} {e : Error} {session : Session} :
    Session.Call fs r.session passes (.error e) session →
    Ends fs src options answered r passes (.error e, { r with session })
  | finished {answered passes : Nat} {r : RunState σ} {session : Session} :
    Session.Call fs r.session passes (.ok none) session →
    Ends fs src options answered r passes ((finish src options answered).exec { r with session })
  | stopped {answered passes : Nat} {r q : RunState σ} {item : Item} {session : Session}
      {outcome : RunOutcome} :
    Session.Call fs r.session passes (.ok (some item)) session →
    (turn src options answered item).exec { r with session } = (.ok (some outcome), q) →
    Ends fs src options answered r passes (.ok outcome, q)
  | refused {answered passes : Nat} {r q : RunState σ} {item : Item} {session : Session} {e : Error} :
    Session.Call fs r.session passes (.ok (some item)) session →
    (turn src options answered item).exec { r with session } = (.error e, q) →
    Ends fs src options answered r passes (.error e, q)
  | answered {answered passes more : Nat} {r q : RunState σ} {item : Item} {session : Session}
      {ending : Except Error RunOutcome × RunState σ} :
    Session.Call fs r.session passes (.ok (some item)) session →
    (turn src options answered item).exec { r with session } = (.ok none, q) →
    Ends fs src options (answered + 1) q more ending →
    Ends fs src options answered r (passes + more) ending

variable {fs : FileSystem} {r q : RunState σ} {src : AnswerSource σ} {options : RunOptions}
  {answered : Nat} {item : Item}

theorem rounds_of_call (src : AnswerSource σ) (options : RunOptions) (answered : Nat) {passes : Nat}
    {found : Except Error (Option Item)} {session : Session}
    (hc : r.session.ceiling ≠ 0) (h : Session.Call fs r.session passes found session)
    (patience items : Nat) :
    rounds fs patience src options (items + 1) answered r =
      match found with
      | .error e => some (.error e, { r with session })
      | .ok none => some ((finish src options answered).exec { r with session })
      | .ok (some item) =>
        match (turn src options answered item).exec { r with session } with
        | (.error e, r) => some (.error e, r)
        | (.ok (some outcome), r) => some (.ok outcome, r)
        | (.ok none, r) => rounds fs patience src options items (answered + 1) r := by
  rw [rounds, h.next_eq hc patience]
  rcases found with e | item
  · rfl
  · cases item <;> rfl

theorem round_cases (fs : FileSystem) (src : AnswerSource σ) (options : RunOptions) (answered : Nat)
    (hc : r.session.ceiling ≠ 0) :
    (∃ passes ending, passes ≤ r.session.ceiling + 1 ∧ Ends fs src options answered r passes ending ∧
      ∀ patience items, rounds fs patience src options (items + 1) answered r = some ending) ∨
    ∃ passes item session q, Session.Call fs r.session passes (.ok (some item)) session ∧
      (turn src options answered item).exec { r with session } = (.ok none, q) ∧
      ∀ patience items, rounds fs patience src options (items + 1) answered r =
        rounds fs patience src options items (answered + 1) q := by
  obtain ⟨passes, found, session, hcall⟩ := Session.exists_call fs r.session
  have hpasses := hcall.passes_le
  have hround := rounds_of_call src options answered hc hcall
  rcases found with e | item
  · exact .inl ⟨passes, _, hpasses, .failed hcall, hround⟩
  · cases item with
    | none => exact .inl ⟨passes, _, hpasses, .finished hcall, hround⟩
    | some item =>
      cases hturn : (turn src options answered item).exec { r with session } with
      | mk done q =>
        simp only [hturn] at hround
        rcases done with e | outcome
        · exact .inl ⟨passes, _, hpasses, .refused hcall hturn, hround⟩
        · cases outcome with
          | some outcome => exact .inl ⟨passes, _, hpasses, .stopped hcall hturn, hround⟩
          | none => exact .inr ⟨passes, item, session, q, hcall, hturn, hround⟩

theorem ceiling_eq_of_turn (h : (turn src options answered item).exec r = (.ok none, q)) :
    q.session.ceiling = r.session.ceiling := by
  obtain ⟨reply, value, -, hanswer, -⟩ := turn_ok h
  obtain ⟨store, -, hq⟩ := Session.answer_eq_ok hanswer
  rw [hq]
  rfl

theorem replies_of_turn {r q : RunState Script}
    (h : (turn Script.source options answered item).exec r = (.ok none, q)) :
    r.source.replies.length = q.source.replies.length + 1 := by
  obtain ⟨reply, value, hnext, -⟩ := turn_ok h
  have hreplies : r.source.replies = reply :: q.source.replies := Script.next_ok hnext
  rw [hreplies, List.length_cons]

theorem exists_ends (fs : FileSystem) (options : RunOptions) {ceiling : Nat} (hc : ceiling ≠ 0)
    {r : RunState Script} (hr : r.session.ceiling = ceiling) (answered : Nat) :
    ∃ passes ending, passes ≤ (ceiling + 1) * (r.source.replies.length + 1) ∧
      Ends fs Script.source options answered r passes ending ∧
      ∀ patience items, r.source.replies.length < items →
        rounds fs patience Script.source options items answered r = some ending := by
  -- every turn that does not end the run takes one of the replies that are left
  induction hleft : r.source.replies.length using Nat.strong_induction_on generalizing r answered with
  | _ left ih =>
    have hlimit : r.session.ceiling ≠ 0 := by rwa [hr]
    have hitems {items : Nat} (hi : left < items) : ∃ fewer, items = fewer + 1 ∧ left ≤ fewer :=
      ⟨items - 1, by omega, by omega⟩
    rcases round_cases fs Script.source options answered hlimit with
      ⟨passes, ending, hpasses, hends, hround⟩ | ⟨passes, item, session, q, hcall, hturn, hround⟩
    · rw [hr] at hpasses
      have hle : ceiling + 1 ≤ (ceiling + 1) * (left + 1) := Nat.le_mul_of_pos_right _ (Nat.succ_pos left)
      refine ⟨passes, ending, hpasses.trans hle, hends, fun patience items hi => ?_⟩
      obtain ⟨fewer, rfl, -⟩ := hitems hi
      exact hround patience fewer
    · have htaken : r.source.replies.length = q.source.replies.length + 1 :=
        replies_of_turn (r := { r with session }) hturn
      have hq : q.session.ceiling = ceiling :=
        (ceiling_eq_of_turn hturn).trans (hcall.ceiling_eq.trans hr)
      obtain ⟨more, ending, hmore, hends, hrounds⟩ :=
        ih q.source.replies.length (by omega) hq (answered + 1) rfl
      refine ⟨passes + more, ending, ?_, .answered hcall hturn hends, fun patience items hi => ?_⟩
      · have hpasses : passes ≤ ceiling + 1 := hr ▸ hcall.passes_le
        calc passes + more
            ≤ (ceiling + 1) + (ceiling + 1) * (q.source.replies.length + 1) :=
              Nat.add_le_add hpasses hmore
          _ = (ceiling + 1) * (left + 1) := by
              rw [← hleft, htaken, Nat.mul_succ _ (q.source.replies.length + 1), Nat.add_comm]
      · obtain ⟨fewer, rfl, hfewer⟩ := hitems hi
        rw [hround]
        exact hrounds patience fewer (by omega)

end Run

namespace Session

/-- With a limit on repeated passes every call returns after at most one pass more. It fails for the limit
exactly if all of these passes are to be repeated, at the place of the last change, and otherwise it is the
first other pass that decides. A run then makes at most that many passes for each reply of its script and
for one item more, and ends. -/
theorem bounded_by_ceiling (s : Session) (fs : FileSystem) (hc : s.ceiling ≠ 0) :
    (∃ passes result t, passes ≤ s.ceiling + 1 ∧ Call fs s passes result t ∧
      ∀ patience, s.next fs patience = some (result, t)) ∧
    (∀ patience limit place t, s.next fs patience = some (.error (.restartLimit limit place), t) ↔
      limit = s.ceiling ∧ ∃ mid, Repeats fs s.ceiling s mid ∧ mid.scan fs = (.ok (.restart place), t)) ∧
    (∀ patience k mid r result t, k ≤ s.ceiling → Repeats fs k s mid → mid.scan fs = (r, t) →
      resultOf r = some result → s.next fs patience = some (result, t)) ∧
    ∀ script options output, ∃ passes ending,
      passes ≤ (s.ceiling + 1) * (script.replies.length + 1) ∧
      Run.Ends fs Script.source options 0 ⟨s, script, output⟩ passes ending ∧
      ∀ patience, script.replies.length < patience →
        s.run fs patience Script.source script options output = some ending := by
  refine ⟨?_, fun patience limit place t => next_restartLimit_iff hc limit, ?_, ?_⟩
  · obtain ⟨passes, result, t, hcall⟩ := exists_call fs s
    exact ⟨passes, result, t, hcall.passes_le, hcall, hcall.next_eq hc⟩
  · intro patience k mid r result t hk hrepeats hs hr
    have hcall : Call fs s (k + 1) result t := .settled hk hrepeats hs hr
    exact hcall.next_eq hc patience
  · intro script options output
    have hceiling : (⟨s, script, output⟩ : RunState Script).session.ceiling = s.ceiling := rfl
    obtain ⟨passes, ending, hle, hends, hrounds⟩ := Run.exists_ends fs options hc hceiling 0
    exact ⟨passes, ending, hle, hends, fun patience hp => hrounds patience patience hp⟩

/-- A session that sets the same value on every pass. -/
def restless : Session where
  document := [{ kind := some "set", key := some "n", value := some (.int 1), force := true }]
  unknownFields := []
  search := .none
  ceiling := 2
  strict := false
  progress := ⟨.empty, .empty, []⟩

theorem bounded_by_ceiling_when_restless :
    (∃ t, restless.next ⟨[], []⟩ 0 = some (.error (.restartLimit 2 [0]), t)) ∧
      ∃ ending, restless.run ⟨[], []⟩ 2 Script.source (Script.ofLines ["answer: x".toList] {}) {} .empty =
        some ending := by
  obtain ⟨-, hlimit, -, hrun⟩ := bounded_by_ceiling restless ⟨[], []⟩ (by decide)
  refine ⟨⟨_, (hlimit 0 2 [0] _).mpr ⟨rfl, _, .pass rfl (.pass rfl (.none _)), rfl⟩⟩, ?_⟩
  obtain ⟨passes, ending, -, -, hends⟩ := hrun (Script.ofLines ["answer: x".toList] {}) {} .empty
  have hreplies : (Script.ofLines ["answer: x".toList] {}).replies = ["x"] := by cbv
  exact ⟨ending, hends 2 (by rw [hreplies]; decide)⟩

end Session
end Interview
