import Interview.Proofs.Settings.Writing
import Interview.Walk.Check
import Interview.Walk.Scan

/-! How walks are carried out, step by step: what each step answers and what it leaves behind. The
steps of later modules are taken apart by these equations alone. -/

namespace Interview.Walk

variable {α β : Type}

def exec (w : Walk α) (p : Progress) : Except Error α × Progress := w.run p

theorem exec_bind (w : Walk α) (f : α → Walk β) (p : Progress) :
    (w >>= f).exec p =
      match w.exec p with
      | (.ok a, q) => (f a).exec q
      | (.error e, q) => (.error e, q) := by
  show StateT.run (ExceptT.run (w >>= f)) p = _
  rw [ExceptT.run_bind, StateT.run_bind]
  cases h : w.exec p with
  | mk r q =>
    have hr : StateT.run (ExceptT.run w) p = (r, q) := h
    rw [hr]
    cases r <;> rfl

@[simp] theorem exec_pure (a : α) (p : Progress) : (pure a : Walk α).exec p = (.ok a, p) := rfl

@[simp] theorem exec_throw (e : Error) (p : Progress) :
    (throw e : Walk α).exec p = (.error e, p) := rfl

@[simp] theorem exec_get (p : Progress) : (get : Walk Progress).exec p = (.ok p, p) := rfl

@[simp] theorem exec_store (p : Progress) : store.exec p = (.ok p.store, p) := rfl

@[simp] theorem exec_setStore (s : Settings) (p : Progress) :
    (setStore s).exec p = (.ok (), { p with store := s }) := rfl

@[simp] theorem exec_report (events : List Event) (p : Progress) :
    (report events).exec p = (.ok (), { p with log := p.log ++ events }) := rfl

@[simp] theorem exec_lift (r : Except Error α) (p : Progress) : (lift r).exec p = (r, p) := by
  cases r <;> rfl

theorem exec_bind_ok {w : Walk α} {f : α → Walk β} {p r : Progress} {b : β}
    (h : (w >>= f).exec p = (.ok b, r)) :
    ∃ a q, w.exec p = (.ok a, q) ∧ (f a).exec q = (.ok b, r) := by
  rw [exec_bind] at h
  split at h
  · next a q hw => exact ⟨a, q, hw, h⟩
  · cases h

@[simp] theorem exec_map (f : α → β) (w : Walk α) (p : Progress) :
    (f <$> w).exec p = ((w.exec p).1.map f, (w.exec p).2) := by
  have h : f <$> w = (w >>= fun a => pure (f a)) := rfl
  rw [h, exec_bind]
  cases w.exec p with
  | mk r q => cases r <;> rfl

@[simp] theorem exec_discard (w : Walk α) (p : Progress) :
    (discard w).exec p = ((w.exec p).1.map fun _ => (), (w.exec p).2) :=
  exec_map (fun _ => ()) w p

theorem exec_commit (item : Item) (given : Option Value) (p : Progress) :
    (commit item given).exec p =
      ((item.write p.store given).1, { p with store := (item.write p.store given).2 }) := by
  simp [commit, exec_bind]

theorem exec_delete (key : String) (p : Progress) :
    (delete key).exec p =
      match p.store.delete key with
      | .ok (_, store) => (.ok (), { p with store := store })
      | .error e => (.error e, p) := by
  cases h : p.store.delete key with
  | error e => simp [delete, exec_bind, h]
  | ok r => simp [delete, exec_bind, h]

theorem exec_openInclude (sp : SearchPath) (fs : FileSystem) (n : Node) (place : WalkPath)
    (p : Progress) :
    (openInclude sp fs n place).exec p =
      match p.includes.openAt sp fs n place with
      | .ok o =>
        (.ok o.included.nodes,
          { p with includes := p.includes.add place o, log := p.log ++ o.events })
      | .error e => (.error e, p) := by
  have hm (f : Progress → Progress) (q : Progress) :
      (modify f : Walk PUnit).exec q = (.ok (), f q) := rfl
  cases h : p.includes.openAt sp fs n place with
  | error e => simp [openInclude, exec_bind, h]
  | ok o => simp [openInclude, exec_bind, hm, h, Except.map]

def Held (current : Option Value) (values : List Value) : Prop :=
  ∃ v, current = some v ∧ ∃ w ∈ values, w.isSame v = true

/-- A branch that declares neither list admits every value, and otherwise those of the one list and those
that are not of the other. -/
def Admits (n : Node) (current : Option Value) : Prop :=
  (n.matchValues = none ∧ n.matchNotValues = none) ∨
    (∃ values, n.matchValues = some values ∧ Held current values) ∨
    (∃ barred, n.matchNotValues = some barred ∧ ¬ Held current barred)

theorem isMember_eq_true {current : Option Value} {values : List Value} :
    isMember current values = true ↔ Held current values := by
  cases current <;> simp [isMember, Held]

theorem admits_eq_true {n : Node} {current : Option Value} : admits n current = true ↔ Admits n current := by
  unfold admits Admits
  cases n.matchValues <;> cases n.matchNotValues <;>
    simp [← isMember_eq_true]

instance (n : Node) (current : Option Value) : Decidable (Admits n current) :=
  decidable_of_iff _ admits_eq_true

/-- Whether a store admits to a branch. A branch without a key of its own to match is open to all. -/
def matched (n : Node) (place : WalkPath) (store : Settings) : Except Error Bool :=
  match n.matchKey with
  | none => .ok true
  | some key =>
    (n.storeKey .branch place (some key) store).map fun key => decide (Admits n (store.get? key))

theorem exec_branchMatches (n : Node) (place : WalkPath) (p : Progress) :
    (branchMatches n place).exec p = (matched n place p.store, p) := by
  have hadmits (current : Option Value) : admits n current = decide (Admits n current) :=
    Bool.eq_iff_iff.mpr (by rw [admits_eq_true, decide_eq_true_iff])
  unfold branchMatches matched
  cases n.matchKey with
  | none => rfl
  | some key =>
    cases h : n.storeKey .branch place (some key) p.store with
    | error e => simp [exec_bind, h, Except.map]
    | ok key => simp [exec_bind, h, Except.map, hadmits]

/-- What becomes of a store when a node commits its own value; nothing, unless the node has a key that
waits for one. -/
def committed? (sp : SearchPath) (fs : FileSystem) (n : Node) (kind : Kind) (place : WalkPath)
    (store : Settings) : Option (Except Error Unit × Settings) :=
  if n.key.isNone then none
  else
    match n.storeKey kind place none store with
    | .error e => some (.error e, store)
    | .ok key =>
      if isDue n store key then
        match Item.resolve sp fs n kind place store with
        | .error e => some (.error e, store)
        | .ok item =>
          some ((item.write store n.value).1.map fun _ => (), (item.write store n.value).2)
      else none

theorem exec_keyedCommit (sp : SearchPath) (fs : FileSystem) (n : Node) (kind : Kind)
    (place : WalkPath) (p : Progress) :
    (keyedCommit sp fs n kind place).exec p =
      match committed? sp fs n kind place p.store with
      | none => (.ok false, p)
      | some (.ok (), store) => (.ok true, { p with store := store })
      | some (.error e, store) => (.error e, { p with store := store }) := by
  unfold keyedCommit committed?
  cases hkey : n.key with
  | none => rfl
  | some own =>
    simp only [Option.isSome_some, if_true, Option.isNone_some, Bool.false_eq_true, if_false]
    unfold autoCommit
    simp only [exec_bind, exec_store, exec_lift]
    cases hk : n.storeKey kind place none p.store with
    | error e => rfl
    | ok key =>
      simp only
      by_cases hd : isDue n p.store key = true
      · simp only [hd, if_true, exec_bind, exec_lift]
        cases hi : Item.resolve sp fs n kind place p.store with
        | error e => rfl
        | ok item =>
          simp only [exec_discard, exec_commit]
          cases hw : (item.write p.store n.value).1 with
          | error e => rfl
          | ok v => rfl
      · simp [hd]

/-- The item that a node asks for, if the node has a key that waits for a value. -/
def asked? (sp : SearchPath) (fs : FileSystem) (n : Node) (kind : Kind) (place : WalkPath)
    (store : Settings) : Option (Except Error Item) :=
  if n.key.isNone then none
  else
    match n.storeKey kind place none store with
    | .error e => some (.error e)
    | .ok key => if isDue n store key then some (Item.resolve sp fs n kind place store) else none

theorem exec_interactive (sp : SearchPath) (fs : FileSystem) (n : Node) (kind : Kind)
    (place : WalkPath) (p : Progress) :
    (interactive sp fs n kind place).exec p =
      (match asked? sp fs n kind place p.store with
        | none => .ok .exhausted
        | some item => item.map .found, p) := by
  unfold interactive asked?
  cases hkey : n.key with
  | none => rfl
  | some own =>
    simp only [Option.isNone_some, Bool.false_eq_true, if_false, exec_bind, exec_store, exec_lift]
    cases hk : n.storeKey kind place none p.store with
    | error e => rfl
    | ok key =>
      simp only
      by_cases hd : isDue n p.store key = true
      · simp only [hd, if_true]
        cases hi : Item.resolve sp fs n kind place p.store with
        | error e => simp [Except.map]
        | ok item => simp [Except.map]
      · simp [hd]

/-- The keys that are there are deleted one after the other, each with what follows from the store as it
is then. -/
def clearedKeys (n : Node) (place : WalkPath) :
    List String → Settings → Except Error (List String) × Settings
  | [], store => (.ok [], store)
  | key :: rest, store =>
    match n.storeKey .reset place (some key) store with
    | .error e => (.error e, store)
    | .ok key =>
      if store.contains key then
        match store.delete key with
        | .error e => (.error e, store)
        | .ok (_, store) =>
          ((clearedKeys n place rest store).1.map (key :: ·), (clearedKeys n place rest store).2)
      else clearedKeys n place rest store

def clearedMatching (p : Pattern) :
    List String → Settings → Except Error (List String) × Settings
  | [], store => (.ok [], store)
  | key :: rest, store =>
    if p.matchesAtStart key then
      match store.delete key with
      | .error e => (.error e, store)
      | .ok (_, store) =>
        ((clearedMatching p rest store).1.map (key :: ·), (clearedMatching p rest store).2)
    else clearedMatching p rest store

def cleared (n : Node) (place : WalkPath) (store : Settings) :
    Except Error (List String) × Settings :=
  match n.resetKeys, n.resetKeyRegexp with
  | some keys, _ => clearedKeys n place keys store
  | none, some source =>
    match compilePattern source with
    | .error e => (.error e, store)
    | .ok p => clearedMatching p store.keys store
  | none, none => (.error (.badItem .reset place .noTargets), store)

theorem exec_deleteKeys (n : Node) (place : WalkPath) (keys : List String) (p : Progress) :
    (deleteKeys n place keys).exec p =
      ((clearedKeys n place keys p.store).1,
        { p with store := (clearedKeys n place keys p.store).2 }) := by
  induction keys generalizing p with
  | nil => rfl
  | cons key rest ih =>
    simp only [deleteKeys, clearedKeys, exec_bind, exec_store, exec_lift]
    cases hk : n.storeKey .reset place (some key) p.store with
    | error e => rfl
    | ok key =>
      simp only
      by_cases hc : p.store.contains key = true
      · simp only [hc, if_true, exec_bind, exec_delete]
        cases hd : p.store.delete key with
        | error e => rfl
        | ok r =>
          simp only [ih]
          cases (clearedKeys n place rest r.2).1 <;> rfl
      · simp only [hc, Bool.false_eq_true, if_false, ih]

theorem exec_deleteMatching (pattern : Pattern) (keys : List String) (p : Progress) :
    (deleteMatching pattern keys).exec p =
      ((clearedMatching pattern keys p.store).1,
        { p with store := (clearedMatching pattern keys p.store).2 }) := by
  induction keys generalizing p with
  | nil => rfl
  | cons key rest ih =>
    simp only [deleteMatching, clearedMatching]
    by_cases hm : pattern.matchesAtStart key = true
    · simp only [hm, if_true, exec_bind, exec_delete]
      cases hd : p.store.delete key with
      | error e => rfl
      | ok r =>
        simp only [ih]
        cases (clearedMatching pattern rest r.2).1 <;> rfl
    · simp only [hm, Bool.false_eq_true, if_false, ih]

theorem exec_deleteTargets (n : Node) (place : WalkPath) (p : Progress) :
    (deleteTargets n place).exec p =
      ((cleared n place p.store).1, { p with store := (cleared n place p.store).2 }) := by
  unfold deleteTargets cleared
  cases n.resetKeys with
  | some keys => exact exec_deleteKeys n place keys p
  | none =>
    cases n.resetKeyRegexp with
    | none => rfl
    | some source =>
      simp only [exec_bind, exec_lift]
      cases hc : compilePattern source with
      | error e => rfl
      | ok pattern => simp only [exec_store, exec_deleteMatching]

end Interview.Walk
