import Interview.Item.Basic
import Interview.Proofs.Outcome

/-! Items as they come from their nodes. -/

namespace Interview.Item

variable {sp : SearchPath} {fs : FileSystem} {n : Node} {kind : Kind} {place : WalkPath}
  {store : Settings} {item : Item}

/-- The values that a node offers as an item has them: filtered, brought to the declared type and
sorted. -/
inductive Lists (sp : SearchPath) (fs : FileSystem) (n : Node) (kind : Kind) (place : WalkPath) :
    Option (List Value) → Prop
  | nothing : offered sp fs n (.badItem kind place) = .ok none → Lists sp fs n kind place none
  | listed {values chosen kept : List Value} :
    offered sp fs n (.badItem kind place) = .ok (some values) →
    filterBy n.valuesRegexp values = .ok chosen → typed n.type chosen = .ok kept →
    Lists sp fs n kind place (some (sorted n.valuesSort kept))

structure Resolved (sp : SearchPath) (fs : FileSystem) (n : Node) (kind : Kind) (place : WalkPath)
    (store : Settings) (item : Item) : Prop where
  key : n.storeKey kind place none store = .ok item.key
  node : item.node = { n with default := item.node.default, values := item.node.values }
  default : resolveDefault sp fs n = .ok item.node.default
  values : Lists sp fs n kind place item.node.values
  kind : item.kind = kind
  place : item.place = place

theorem lists_of_resolveValues {values listed : List Value}
    (ho : offered sp fs n (.badItem kind place) = .ok (some values))
    (h : resolveValues n (.badItem kind place) values = .ok listed) :
    Lists sp fs n kind place (some listed) := by
  obtain ⟨chosen, hchosen, h⟩ := bind_eq_ok.mp h
  split at h
  · next kept hkept =>
    cases h
    exact .listed ho hchosen hkept
  · cases h

theorem resolved (h : resolve sp fs n kind place store = .ok item) :
    Resolved sp fs n kind place store item := by
  simp only [resolve, bind_eq_ok] at h
  obtain ⟨key, hk, default, hd, h⟩ := h
  obtain ⟨offered, ho, h⟩ := h
  cases offered with
  | none =>
    simp only [bind_eq_ok] at h
    obtain ⟨values, hv, range, -, pattern, -, h⟩ := h
    cases hv
    cases h
    exact ⟨hk, rfl, hd, .nothing ho, rfl, rfl⟩
  | some values =>
    simp only [bind_eq_ok] at h
    obtain ⟨listed, hv, range, -, pattern, -, h⟩ := h
    obtain ⟨listed, hlisted, rfl⟩ := map_eq_ok.mp hv
    cases h
    exact ⟨hk, rfl, hd, lists_of_resolveValues ho hlisted, rfl, rfl⟩

/-- An item stands at the place of its node and writes to the key that its node has in the store. -/
theorem resolve_eq_ok (h : resolve sp fs n kind place store = .ok item) :
    n.storeKey kind place none store = .ok item.key ∧ item.kind = kind ∧ item.place = place :=
  ⟨(resolved h).key, (resolved h).kind, (resolved h).place⟩

theorem default_of_resolve (h : resolve sp fs n kind place store = .ok item) :
    resolveDefault sp fs n = .ok item.node.default :=
  (resolved h).default

end Interview.Item
