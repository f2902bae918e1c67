import Interview.Proofs.Item.Acceptance
import Interview.Proofs.Number.Decimal
import Interview.Proofs.Settings.Storing

/-! The keys of a loop. A node with a counter ends its key with the count, so its keys at two counts stand
side by side below one parent: neither is on the way to the other, and what is committed under one of
them neither shows nor is in the way at the other. -/

namespace Interview

namespace Key

/-- Two keys below one parent, with different names there. -/
structure Siblings (key other : String) (parent : List String) (name sibling : String) : Prop where
  left : segments key = parent ++ [name]
  right : segments other = parent ++ [sibling]
  ne : name ≠ sibling

theorem segments_counted (base : String) (count : Int) :
    segments (base ++ "." ++ String.ofList (Number.intText count)) =
      segments base ++ [String.ofList (Number.intText count)] := by
  have hdot : '.' ∉ (String.ofList (Number.intText count)).toList := by
    simpa using Number.noDot_intText count
  rw [segments_append, segments_of_noDot hdot]

namespace Siblings

variable {key other name sibling : String} {parent : List String}

theorem symm (h : Siblings key other parent name sibling) : Siblings other key parent sibling name :=
  ⟨h.right, h.left, h.ne.symm⟩

theorem not_prefix (h : Siblings key other parent name sibling) :
    ¬ segments key <+: segments other := by
  rw [h.left, h.right, List.prefix_append_right_inj]
  intro hp
  exact h.ne (List.cons_prefix_cons.mp hp).1

theorem prefix_of_prefix (h : Siblings key other parent name sibling) {above : String}
    (hp : segments above <+: segments other) (hne : above ≠ other) :
    segments above <+: segments key ∧ above ≠ key := by
  have hparent : segments above <+: parent := by
    rw [h.right, List.prefix_concat_iff, ← h.right] at hp
    exact hp.resolve_left fun he => hne (segments_inj he)
  refine ⟨hparent.trans (by simp [h.left]), ?_⟩
  rintro rfl
  have hlength := hparent.length_le
  rw [h.left, List.length_append, List.length_singleton] at hlength
  omega

end Siblings

end Key

namespace Settings

open Key

variable {s after : Settings} {key other name sibling : String} {parent : List String}

/-- What a store becomes when a value is committed under a key, on its own or as the answer to an item. -/
inductive CommitAt (s : Settings) (key : String) : Settings → Prop
  | stored (v : Value) : CommitAt s key (s.write key v).2
  | answered (item : Item) (given : Option Value) :
    item.key = key → CommitAt s key (item.write s given).2

theorem CommitAt.cases (h : s.CommitAt key after) :
    after = s ∨ ∃ v, s.write key v = (.ok (), after) := by
  cases h with
  | stored v =>
    rcases s.write_cases key v with ⟨e, hw⟩ | ⟨-, hw⟩
    · exact .inl (by rw [hw])
    · exact .inr ⟨v, by rw [hw]⟩
  | answered item given hkey =>
    have hadmits := item.write_admits s given
    rcases hw : item.write s given with ⟨outcome, root⟩
    rw [hw] at hadmits
    cases outcome with
    | error e => exact .inl hadmits
    | ok w => exact .inr ⟨w, hkey ▸ hadmits.1⟩

/-- Beside a key that was written every name can be written: the parent is a table by then. -/
theorem write_beside (hs : Siblings key other parent name sibling) (hname : sibling ≠ "") {v : Value}
    (h : s.write key v = (.ok (), after)) (w : Value) : (after.write other w).1 = .ok () := by
  have hkey := write_eq_ok_iff.mp (congrArg Prod.fst h)
  refine write_eq_ok_iff.mpr ⟨fun hmem => ?_, fun above hp hne => ?_⟩
  · rw [hs.right, List.mem_append, List.mem_singleton] at hmem
    rcases hmem with hmem | hmem
    · exact hkey.1 (by simp [hs.left, hmem])
    · exact hname hmem.symm
  · obtain ⟨hp, hne⟩ := hs.prefix_of_prefix hp hne
    exact leaf?_of_hasTable (hasTable_above_write h hp hne).2

theorem CommitAt.beside (h : s.CommitAt key after) (hs : Siblings key other parent name sibling)
    (hname : sibling ≠ "") :
    after.get? other = s.get? other ∧
      ∀ w e, (after.write other w).1 = .error e → (s.write other w).1 = .error e := by
  rcases h.cases with rfl | ⟨v, hw⟩
  · exact ⟨rfl, fun _ _ he => he⟩
  · refine ⟨get?_write_of_incomparable hw hs.symm.not_prefix hs.not_prefix, fun w e he => ?_⟩
    rw [write_beside hs hname hw w] at he
    cases he

end Settings

namespace Node

open Key

variable {n : Node} {counterKey : String}

theorem storeKey_counted (hp : n.parameterize = some counterKey) {kind : Kind} {place : WalkPath}
    {own : Option String} {store : Settings} {key : String} {count : Int64}
    (hc : counter counterKey store = .ok count) (hk : n.storeKey kind place own store = .ok key) :
    ∃ named, (own <|> n.key) = some named ∧
      key = n.sectionedKey named ++ "." ++ String.ofList (Number.intText count.toInt) := by
  unfold storeKey at hk
  cases hown : own <|> n.key with
  | none =>
    rw [hown] at hk
    cases hk
  | some named =>
    rw [hown, hp] at hk
    obtain ⟨_, hnamed, hk⟩ := bind_eq_ok.mp hk
    obtain rfl := Except.ok.inj hnamed
    obtain ⟨read, hread, hk⟩ := bind_eq_ok.mp hk
    rw [hc] at hread
    obtain rfl := Except.ok.inj hread
    exact ⟨named, rfl, (Except.ok.inj hk).symm⟩

/-- The keys that a node has at two counts differ, and neither is on the way to the other. So a value
that is committed under one of them leaves what stands at the other as it was, and a write to the other
fails afterwards only as it would have failed before. -/
theorem loop_keys_apart (hp : n.parameterize = some counterKey) {own : Option String}
    {kind kind' : Kind} {place place' : WalkPath} {first second : Settings} {i j : Int64}
    {key other : String} (hi : counter counterKey first = .ok i)
    (hj : counter counterKey second = .ok j) (hij : i ≠ j)
    (hkey : n.storeKey kind place own first = .ok key)
    (hother : n.storeKey kind' place' own second = .ok other) :
    key ≠ other ∧ ¬ segments key <+: segments other ∧ ¬ segments other <+: segments key ∧
      ∀ store after : Settings, store.CommitAt key after →
        after.get? other = store.get? other ∧
          ∀ v e, (after.write other v).1 = .error e → (store.write other v).1 = .error e := by
  obtain ⟨named, hnamed, rfl⟩ := storeKey_counted hp hi hkey
  obtain ⟨named', hnamed', rfl⟩ := storeKey_counted hp hj hother
  obtain rfl : named = named' := Option.some.inj (hnamed.symm.trans hnamed')
  have htext : String.ofList (Number.intText i.toInt) ≠ String.ofList (Number.intText j.toInt) := by
    intro he
    exact hij (Int64.toInt_inj.mp (Number.intText_inj (String.ofList_injective he)))
  have hne : String.ofList (Number.intText j.toInt) ≠ "" := by
    intro he
    exact Number.intText_ne_nil j.toInt (by simpa using congrArg String.toList he)
  have hs := Siblings.mk (segments_counted (n.sectionedKey named) i.toInt)
    (segments_counted (n.sectionedKey named) j.toInt) htext
  refine ⟨?_, hs.not_prefix, hs.symm.not_prefix, fun store after h => h.beside hs hne⟩
  intro he
  exact hs.not_prefix (by rw [he])

theorem loop_keys_apart_of_users :
    let n : Node := { sectionName := some "users", key := some "name",
                      parameterize := some "users.count" }
    let second : Settings := ⟨[("users", .table [("count", .int 1)])]⟩
    n.storeKey .question [0] none .empty = .ok "users.name.0" ∧
      n.storeKey .question [0] none second = .ok "users.name.1" ∧
      ∀ store after : Settings, store.CommitAt "users.name.0" after →
        after.get? "users.name.1" = store.get? "users.name.1" ∧
          ∀ v e, (after.write "users.name.1" v).1 = .error e →
            (store.write "users.name.1" v).1 = .error e := by
  intro n second
  have hkey : n.storeKey .question [0] none .empty = .ok "users.name.0" := rfl
  have hother : n.storeKey .question [0] none second = .ok "users.name.1" := rfl
  have hapart := loop_keys_apart (n := n) (i := 0) (j := 1) rfl rfl rfl (by decide) hkey hother
  exact ⟨hkey, hother, hapart.2.2.2⟩

end Node
end Interview
