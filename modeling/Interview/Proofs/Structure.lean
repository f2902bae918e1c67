import Interview.Item.Basic

/-! What can be wrong with a document by itself, whatever the store holds, and the steps that never fail
for such a reason. -/

namespace Interview

def Reason.isStructural : Reason → Bool
  | rangeForm _ => true
  | zeroStep _ => true
  | noTargets => true
  | _ => false

/-- Errors that lie in a document or in the documents that it includes. -/
def Error.isStructural : Error → Bool
  | missingKind _ => true
  | unknownKind _ _ => true
  | missingField field kind _ => field == "path" && kind == .inclusion
  | includeNotFound _ _ => true
  | includeCycle _ _ => true
  | badItem _ _ reason => reason.isStructural
  | invalidPattern _ => true
  | unparsable _ _ => true
  | _ => false

/-- A step that fails, if at all, for something else than the structure of a document. -/
def Clean (r : Except Error α) : Prop := ∀ e, r = .error e → e.isStructural = false

namespace Clean

variable {α β : Type}

theorem ok (a : α) : Clean (.ok a) := by
  intro e h
  cases h

theorem error {e : Error} (h : e.isStructural = false) : Clean (.error e : Except Error α) := by
  intro e' he
  cases he
  exact h

theorem bind {x : Except Error α} {f : α → Except Error β} (hx : Clean x)
    (hf : ∀ a, x = .ok a → Clean (f a)) : Clean (x >>= f) := by
  cases x with
  | error e => exact error (hx e rfl)
  | ok a => exact hf a rfl

theorem map {x : Except Error α} (hx : Clean x) (f : α → β) : Clean (x.map f) := by
  cases x with
  | error e => exact error (hx e rfl)
  | ok a => exact ok (f a)

end Clean

/-- What every node has to be, apart from the nodes below it. -/
structure Node.Sound (n : Node) (kind : Kind) : Prop where
  range : ∀ spec, n.range = some spec → ∃ r, Range.parse n.type spec = .ok r
  regexp : ∀ source, n.regexp = some source → ∃ p, compilePattern source = .ok p
  valuesRegexp : ∀ source, n.valuesRegexp = some source → ∃ p, compilePattern source = .ok p
  resetKeyRegexp : ∀ source, n.resetKeyRegexp = some source → ∃ p, compilePattern source = .ok p
  targets : kind = .reset → n.resetKeys.isSome ∨ n.resetKeyRegexp.isSome

theorem Value.toInteger_error {v : Value} {reason : Reason} (h : v.toInteger = .error reason) :
    reason.isStructural = false := by
  unfold toInteger at h
  split at h
  · cases h
  · split at h
    · split at h <;> cases h
      rfl
    · cases h
      rfl
  · split at h <;> cases h
    rfl
  · cases h
    rfl

theorem Node.counter_clean (key : String) (store : Settings) : Clean (counter key store) := by
  unfold counter
  split
  · exact .ok _
  · split
    · exact .ok _
    · exact .error rfl

theorem Node.storeKey_clean (n : Node) (kind : Kind) (place : WalkPath) (key : Option String)
    (store : Settings) : Clean (n.storeKey kind place key store) := by
  unfold storeKey
  dsimp only
  split
  · refine .bind (.ok _) fun key _ => ?_
    split
    · exact .ok _
    · exact .bind (counter_clean _ _) fun count _ => .ok _
  · exact .error (by simp [Error.isStructural])

theorem Settings.delete_clean (store : Settings) (key : String) : Clean (store.delete key) := by
  unfold Settings.delete
  split
  · exact .ok _
  · exact .error rfl

theorem Settings.write_clean (store : Settings) (key : String) (v : Value) :
    Clean (store.write key v).1 := by
  unfold Settings.write
  dsimp only
  split
  · exact .error rfl
  · split
    · exact .ok _
    · exact .error rfl

namespace SearchPath

theorem readText_clean (sp : SearchPath) (fs : FileSystem) (p : Path) : Clean (sp.readText fs p) := by
  unfold readText
  dsimp only
  split
  · exact .ok _
  · exact .error rfl

theorem list_clean (sp : SearchPath) (fs : FileSystem) (l : Listing) : Clean (sp.list fs l) := by
  unfold list
  dsimp only
  split
  · exact .error rfl
  · exact .ok _

end SearchPath

theorem Listing.parse_error {text : String} {reason : Reason} (h : parse text = .error reason) :
    reason.isStructural = false := by
  unfold parse at h
  split at h
  · cases h
    rfl
  · split at h <;> cases h
    rfl

namespace Item

theorem chosen_clean (item : Item) (given : Option Value) : Clean (item.chosen given) := by
  unfold chosen
  cases item.node.default with
  | none =>
    split
    · exact .error rfl
    · cases given with
      | none => exact .error rfl
      | some v => exact .ok v
  | some default =>
    split
    · exact .ok _
    · cases given with
      | none => exact .ok default
      | some v => exact .ok _

theorem write_clean (item : Item) (store : Settings) (given : Option Value) :
    Clean (item.write store given).1 := by
  have ha : Clean (item.accept given) := by
    unfold accept
    refine .bind (item.chosen_clean given) fun chosen _ => ?_
    dsimp only
    split
    · exact .ok _
    · exact .error rfl
  unfold write
  split
  · next e he => exact .error (ha e he)
  · next v _ =>
    have hw := store.write_clean item.key v
    split
    · exact .ok _
    · next e store he => exact .error (hw e (by rw [he]))

section Resolution

variable {n : Node} {kind : Kind}

theorem resolveDefault_clean (sp : SearchPath) (fs : FileSystem) (n : Node) :
    Clean (resolveDefault sp fs n) := by
  unfold resolveDefault
  split
  · exact .map (sp.readText_clean fs _) _
  · exact .ok _

theorem offered_clean (sp : SearchPath) (fs : FileSystem) (n : Node) (kind : Kind)
    (place : WalkPath) : Clean (offered sp fs n (.badItem kind place)) := by
  unfold offered
  dsimp only
  cases n.valuesFromFile with
  | none =>
    split
    · split
      · exact .bind (.map (sp.list_clean fs _) _) fun _ _ => .ok _
      · next reason hr => exact .error (Listing.parse_error hr)
    · exact .ok _
  | some path =>
    split
    · split
      · exact .bind (.map (sp.list_clean fs _) _) fun _ _ => .map (sp.readText_clean fs _) _
      · next reason hr => exact .error (Listing.parse_error hr)
    · exact .map (sp.readText_clean fs _) _

theorem resolveValues_clean (h : n.Sound kind) (place : WalkPath) (values : List Value) :
    Clean (resolveValues n (.badItem kind place) values) := by
  unfold resolveValues
  refine .bind ?_ fun kept _ => ?_
  · unfold filterBy
    split
    · next source hs =>
      obtain ⟨p, hp⟩ := h.valuesRegexp source hs
      rw [hp]
      exact .ok _
    · exact .ok _
  · split
    · exact .ok _
    · exact .error rfl

theorem resolveRange_clean (h : n.Sound kind) (place : WalkPath) :
    Clean (resolveRange n (.badItem kind place)) := by
  unfold resolveRange
  split
  · exact .ok _
  · next spec hs =>
    obtain ⟨r, hr⟩ := h.range spec hs
    rw [hr]
    exact .ok _

theorem resolvePattern_clean (h : n.Sound kind) : Clean (resolvePattern n) := by
  unfold resolvePattern
  split
  · exact .ok _
  · next source hs =>
    obtain ⟨p, hp⟩ := h.regexp source hs
    rw [hp]
    exact .ok _

theorem resolve_clean (h : n.Sound kind) (sp : SearchPath) (fs : FileSystem) (place : WalkPath)
    (store : Settings) : Clean (resolve sp fs n kind place store) := by
  unfold resolve
  refine .bind (n.storeKey_clean kind place none store) fun key _ => ?_
  refine .bind (resolveDefault_clean sp fs n) fun default _ => ?_
  refine .bind (offered_clean sp fs n kind place) fun values _ => ?_
  dsimp only
  split
  · refine .bind (.map (resolveValues_clean h place _) _) fun values _ => ?_
    refine .bind (resolveRange_clean h place) fun range _ => ?_
    exact .bind (resolvePattern_clean h) fun pattern _ => .ok _
  · refine .bind (.ok _) fun values _ => ?_
    refine .bind (resolveRange_clean h place) fun range _ => ?_
    exact .bind (resolvePattern_clean h) fun pattern _ => .ok _

end Resolution

end Item
end Interview
