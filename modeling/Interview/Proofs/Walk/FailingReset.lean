import Interview.Proofs.Walk.Effect

/-! Resets that fail. A reset deletes its targets one by one and commits its own value last, and nothing
is put back when a later step fails: what was deleted by then stays deleted. -/

namespace Interview.Walk

/-- How a reset can fail: what it has deleted by then, the error, and the store that it leaves. -/
inductive ResetFails (sp : SearchPath) (fs : FileSystem) (n : Node) (place : WalkPath) (s : Settings) :
    List String → Error → Settings → Prop
  | noTargets : n.resetKeys = none → n.resetKeyRegexp = none →
    ResetFails sp fs n place s [] (.badItem .reset place .noTargets) s
  | badPattern {source : String} {e : Error} : n.resetKeys = none → n.resetKeyRegexp = some source →
    compilePattern source = .error e → ResetFails sp fs n place s [] e s
  | badKey {before rest deleted : List String} {key : String} {e : Error} {t : Settings} :
    n.resetKeys = some (before ++ key :: rest) → clearedKeys n place before s = (.ok deleted, t) →
    n.storeKey .reset place (some key) t = .error e → ResetFails sp fs n place s deleted e t
  | notFound {source : String} {pattern : Pattern} {before rest deleted : List String} {key : String}
      {t : Settings} : n.resetKeys = none → n.resetKeyRegexp = some source →
    compilePattern source = .ok pattern → s.keys = before ++ key :: rest →
    clearedMatching pattern before s = (.ok deleted, t) → pattern.matchesAtStart key = true →
    t.get? key = none → ResetFails sp fs n place s deleted (.keyNotFound key) t
  | ownValue {deleted : List String} {e : Error} {t : Settings} :
    cleared n place s = (.ok deleted, t) →
    committed? sp fs n .reset place t = some (.error e, t) → ResetFails sp fs n place s deleted e t

variable {sp : SearchPath} {fs : FileSystem} {n : Node} {place : WalkPath} {s t : Settings} {e : Error}

/-- Only a key that cannot be told stops the deletion of named keys: the others are looked up first. -/
theorem clearedKeys_eq_error {keys : List String} (h : clearedKeys n place keys s = (.error e, t)) :
    ∃ before key rest deleted, keys = before ++ key :: rest ∧
      clearedKeys n place before s = (.ok deleted, t) ∧
        n.storeKey .reset place (some key) t = .error e := by
  induction keys generalizing s with
  | nil => cases (Prod.mk.inj h).1
  | cons key rest ih =>
    unfold clearedKeys at h
    cases hk : n.storeKey .reset place (some key) s with
    | error e' =>
      simp only [hk] at h
      obtain ⟨rfl, rfl⟩ := mk_error_inj h
      exact ⟨[], key, rest, [], rfl, rfl, hk⟩
    | ok full =>
      by_cases hc : s.contains full = true
      · obtain ⟨v, hv⟩ := Option.isSome_iff_exists.mp hc
        obtain ⟨next, hd⟩ := Settings.delete_of_get? hv
        simp only [hk, hc, hd, if_true] at h
        obtain ⟨hr, ht⟩ := Prod.mk.inj h
        have he := map_eq_error.mp hr
        obtain ⟨before, key', rest', deleted, rfl, hb, hbad⟩ := ih (Prod.ext he ht)
        exact ⟨key :: before, key', rest', full :: deleted, rfl,
          by simp [clearedKeys, hk, hc, hd, hb, Except.map], hbad⟩
      · simp only [hk, hc] at h
        obtain ⟨before, key', rest', deleted, rfl, hb, hbad⟩ := ih h
        exact ⟨key :: before, key', rest', deleted, rfl, by simp [clearedKeys, hk, hc, hb], hbad⟩

/-- The keys of the snapshot are not looked up again, so one that is no longer there stops the
deletion. -/
theorem clearedMatching_eq_error {pattern : Pattern} {keys : List String}
    (h : clearedMatching pattern keys s = (.error e, t)) :
    ∃ before key rest deleted, keys = before ++ key :: rest ∧
      clearedMatching pattern before s = (.ok deleted, t) ∧ pattern.matchesAtStart key = true ∧
        t.get? key = none ∧ e = .keyNotFound key := by
  induction keys generalizing s with
  | nil => cases (Prod.mk.inj h).1
  | cons key rest ih =>
    unfold clearedMatching at h
    by_cases hm : pattern.matchesAtStart key = true
    · cases hd : s.delete key with
      | error e' =>
        simp only [hm, hd, if_true] at h
        obtain ⟨rfl, rfl⟩ := mk_error_inj h
        obtain ⟨hg, hkey⟩ := Settings.delete_eq_error.mp hd
        exact ⟨[], key, rest, [], rfl, rfl, hm, hg, hkey⟩
      | ok taken =>
        simp only [hm, hd, if_true] at h
        obtain ⟨hr, ht⟩ := Prod.mk.inj h
        have he := map_eq_error.mp hr
        obtain ⟨before, key', rest', deleted, rfl, hb, hbad⟩ := ih (Prod.ext he ht)
        exact ⟨key :: before, key', rest', key :: deleted, rfl,
          by simp [clearedMatching, hm, hd, hb, Except.map], hbad⟩
    · simp only [hm] at h
      obtain ⟨before, key', rest', deleted, rfl, hb, hbad⟩ := ih h
      exact ⟨key :: before, key', rest', deleted, rfl, by simp [clearedMatching, hm, hb], hbad⟩

theorem resetFails_of_cleared (h : cleared n place s = (.error e, t)) :
    ∃ deleted, ResetFails sp fs n place s deleted e t := by
  unfold cleared at h
  cases hk : n.resetKeys with
  | some keys =>
    simp only [hk] at h
    obtain ⟨before, key, rest, deleted, rfl, hb, hbad⟩ := clearedKeys_eq_error h
    exact ⟨deleted, .badKey hk hb hbad⟩
  | none =>
    cases hr : n.resetKeyRegexp with
    | none =>
      simp only [hk, hr] at h
      obtain ⟨rfl, rfl⟩ := mk_error_inj h
      exact ⟨[], .noTargets hk hr⟩
    | some source =>
      cases hc : compilePattern source with
      | error e' =>
        simp only [hk, hr, hc] at h
        obtain ⟨rfl, rfl⟩ := mk_error_inj h
        exact ⟨[], .badPattern hk hr hc⟩
      | ok pattern =>
        simp only [hk, hr, hc] at h
        obtain ⟨before, key, rest, deleted, hkeys, hb, hm, hg, rfl⟩ := clearedMatching_eq_error h
        exact ⟨deleted, .notFound hk hr hc hkeys hb hm hg⟩

theorem resetFails_of_committed {deleted : List String} {after : Settings}
    (hc : cleared n place s = (.ok deleted, t))
    (h : committed? sp fs n .reset place t = some (.error e, after)) :
    after = t ∧ ResetFails sp fs n place s deleted e t := by
  rcases committed?_eq_some h with ⟨_, -, rfl⟩ | ⟨hok, -⟩
  · exact ⟨rfl, .ownValue hc h⟩
  · cases hok

theorem ResetFails.deletes {deleted : List String} (h : ResetFails sp fs n place s deleted e t) :
    s.Deletes deleted t := by
  cases h with
  | noTargets => exact .nil
  | badPattern => exact .nil
  | badKey _ hb => exact deletes_of_clearedKeys hb
  | notFound _ _ _ _ hb => exact deletes_of_clearedMatching hb
  | ownValue hc => exact (clears_of_cleared hc).deletes

theorem settled_error {p q : Progress} {done : Except Error Unit × Settings}
    (h : settled p place done = (.error e, q)) : done = (.error e, q.store) ∧ q.includes = p.includes := by
  obtain ⟨r, store⟩ := done
  obtain ⟨he, rfl⟩ := Prod.mk.inj h
  exact ⟨Prod.ext (map_eq_error.mp he) rfl, rfl⟩

theorem resetFails_of_exec {p q : Progress} (h : (reset sp fs n place).exec p = (.error e, q)) :
    q.includes = p.includes ∧ ∃ deleted, ResetFails sp fs n place p.store deleted e q.store := by
  rw [exec_reset] at h
  unfold resetStop? at h
  cases hc : cleared n place p.store with
  | mk r store =>
    rw [hc] at h
    cases r with
    | error e' =>
      obtain ⟨rfl, rfl⟩ := mk_error_inj h
      exact ⟨rfl, resetFails_of_cleared hc⟩
    | ok deleted =>
      cases deleted with
      | nil =>
        have hs : store = p.store := by
          have hstore := cleared_store (congrArg Prod.fst hc)
          rwa [hc] at hstore
        subst hs
        cases hcommit : committed? sp fs n .reset place p.store with
        | none => simp [hcommit] at h
        | some done =>
          simp only [hcommit, Option.map_some, Option.getD_some] at h
          obtain ⟨rfl, hincludes⟩ := settled_error h
          obtain ⟨hafter, hfails⟩ := resetFails_of_committed hc hcommit
          exact ⟨hincludes, [], hafter ▸ hfails⟩
      | cons key rest =>
        dsimp only at h
        cases hcommit : committed? sp fs n .reset place store with
        | none => simp [hcommit] at h
        | some done =>
          simp only [hcommit, Option.getD_some] at h
          obtain ⟨rfl, hincludes⟩ := settled_error h
          obtain ⟨hafter, hfails⟩ := resetFails_of_committed hc hcommit
          exact ⟨hincludes, _, hafter ▸ hfails⟩

/-- A reset that fails leaves the store without what it had deleted by then, and otherwise as it was: it
is unchanged exactly if the failure came before the first deletion. -/
theorem failing_reset_keeps_iff {p q : Progress}
    (h : (reset sp fs n place).exec p = (.error e, q)) :
    ∃ deleted, ResetFails sp fs n place p.store deleted e q.store ∧ p.store.Deletes deleted q.store ∧
      q.includes = p.includes ∧ (q.store = p.store ↔ deleted = []) := by
  obtain ⟨hincludes, deleted, hfails⟩ := resetFails_of_exec h
  exact ⟨deleted, hfails, hfails.deletes, hincludes, hfails.deletes.eq_iff⟩

def emptyHanded : Node := { kind := some "reset", resetKeys := some ["a"], key := some "b" }

theorem failing_reset_keeps_untouched :
    let p : Progress := ⟨⟨[("c", .int 1)]⟩, .empty, []⟩
    (reset .none ⟨[], []⟩ emptyHanded [0]).exec p = (.error (.invalidValue "b" .noValue), p) ∧
      ∃ deleted, ResetFails .none ⟨[], []⟩ emptyHanded [0] p.store deleted
        (.invalidValue "b" .noValue) p.store ∧ deleted = [] := by
  intro p
  have hexec : (reset .none ⟨[], []⟩ emptyHanded [0]).exec p =
      (.error (.invalidValue "b" .noValue), p) := rfl
  obtain ⟨deleted, hfails, -, -, hiff⟩ := failing_reset_keeps_iff hexec
  exact ⟨hexec, deleted, hfails, hiff.mp rfl⟩

/-- The deletion is not taken back when the commit fails. -/
theorem failing_reset_deletes :
    ∃ q, (reset .none ⟨[], []⟩ emptyHanded [0]).exec ⟨⟨[("a", .int 1)]⟩, .empty, []⟩ =
        (.error (.invalidValue "b" .noValue), q) ∧
      q.store.get? "a" = none ∧ q.store ≠ ⟨[("a", .int 1)]⟩ := by
  refine ⟨⟨⟨[]⟩, .empty, [.deleted [0] ["a"]]⟩, rfl, rfl, fun h => ?_⟩
  cases congrArg Settings.root h

end Interview.Walk
