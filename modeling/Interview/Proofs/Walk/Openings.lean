import Interview.Proofs.Walk.Course
import Mathlib.Logic.Relation

/-! How the cache of included documents comes about. A pass and an examination change it in one way only:
a document is opened at an include node that stands in the tree and was not opened before. -/

namespace Interview

namespace IncludeCache

theorem find?_eq_none {cache : IncludeCache} {place : WalkPath} :
    cache.find? place = none ↔ cache.nodes? place = none :=
  Option.map_eq_none_iff.symm

theorem find?_add {cache : IncludeCache} {place at_ : WalkPath} {o : Opened} {inc : Included}
    (h : (cache.add place o).find? at_ = some inc) :
    cache.find? at_ = some inc ∨ (at_ = place ∧ inc = o.included) := by
  have hadd : (cache.add place o).find? at_ =
      (cache.find? at_).or ([(place, o.included)].lookup at_) := List.lookup_append
  rw [hadd, Option.or_eq_some_iff] at h
  refine h.imp id ?_
  rintro ⟨-, hl⟩
  by_cases hp : at_ = place
  · subst hp
    rw [List.lookup_cons_self] at hl
    exact ⟨rfl, (Option.some.inj hl).symm⟩
  · have hnone : [(place, o.included)].lookup at_ = none :=
      List.lookup_eq_none_iff.mpr (by simpa using hp)
    rw [hnone] at hl
    cases hl

end IncludeCache

namespace Walk

variable {α β : Type} {sp : SearchPath} {fs : FileSystem} {doc : List Node}

/-- One more document is opened, at a place of some kind. -/
inductive Opens (sp : SearchPath) (fs : FileSystem) (doc : List Node) (fresh : WalkPath → Prop)
    (old : IncludeCache) : IncludeCache → Prop
  | opened {place : WalkPath} {n : Node} {o : IncludeCache.Opened} :
    fresh place → Stands old doc place n → n.kindAt place = .ok .inclusion →
    old.nodes? place = none → old.openAt sp fs n place = .ok o →
    Opens sp fs doc fresh old (old.add place o)

abbrev Explores (sp : SearchPath) (fs : FileSystem) (doc : List Node) (fresh : WalkPath → Prop) :
    IncludeCache → IncludeCache → Prop :=
  Relation.ReflTransGen (Opens sp fs doc fresh)

section Exploration

variable {fresh other : WalkPath → Prop} {old new : IncludeCache}

theorem Opens.grown (h : Opens sp fs doc fresh old new) : old.Grown new fresh := by
  cases h with
  | @opened place n o hf _ _ _ _ =>
    exact (old.grown_add place o).mono fun at_ he => he ▸ hf

theorem Explores.grown (h : Explores sp fs doc fresh old new) : old.Grown new fresh := by
  induction h with
  | refl => exact .refl _ _
  | tail _ hs ih => exact ih.trans hs.grown

theorem Explores.mono (h : Explores sp fs doc fresh old new) (hf : ∀ at_, fresh at_ → other at_) :
    Explores sp fs doc other old new := by
  induction h with
  | refl => exact .refl
  | tail _ hs ih =>
    obtain ⟨hfresh, hs, hk, hn, ho⟩ := hs
    exact ih.tail (.opened (hf _ hfresh) hs hk hn ho)

theorem StandAt.grown {parent : WalkPath} {index : Nat} {nodes : List Node}
    (h : StandAt old doc parent index nodes) (hg : old.Grown new fresh) :
    StandAt new doc parent index nodes :=
  fun i n hi => (h i n hi).grown hg

theorem explores_bind {w : Walk α} {f : α → Walk β} {p : Progress}
    (hw : Explores sp fs doc fresh p.includes (w.exec p).2.includes)
    (hf : ∀ a q, w.exec p = (.ok a, q) →
      Explores sp fs doc fresh q.includes ((f a).exec q).2.includes) :
    Explores sp fs doc fresh p.includes ((w >>= f).exec p).2.includes := by
  rw [exec_bind]
  cases h : w.exec p with
  | mk r q =>
    rw [h] at hw
    cases r with
    | error e => exact hw
    | ok a => exact hw.trans (hf a q h)

end Exploration

def Still (w : Walk α) : Prop := ∀ p, (w.exec p).2 = p

namespace Still

theorem throw (e : Error) : Still (throw e : Walk α) := fun _ => rfl

theorem lift (r : Except Error α) : Still (lift r) := fun p => by rw [exec_lift]

theorem explores {w : Walk α} (h : Still w) (fresh : WalkPath → Prop) (p : Progress) :
    Explores sp fs doc fresh p.includes (w.exec p).2.includes := by
  rw [h p]

end Still

/-- A walk that answers the same wherever it is made, and leaves everything as it is. -/
def Idle (w : Walk α) : Prop := ∃ r, ∀ p, w.exec p = (r, p)

namespace Idle

theorem pure (a : α) : Idle (pure a) := ⟨.ok a, fun _ => rfl⟩

theorem throw (e : Error) : Idle (throw e : Walk α) := ⟨.error e, fun _ => rfl⟩

theorem lift (r : Except Error α) : Idle (lift r) := ⟨r, exec_lift r⟩

theorem bind {w : Walk α} {f : α → Walk β} (hw : Idle w) (hf : ∀ a, Idle (f a)) : Idle (w >>= f) := by
  obtain ⟨r, hr⟩ := hw
  cases r with
  | error e => exact ⟨.error e, fun p => by rw [exec_bind, hr]⟩
  | ok a =>
    obtain ⟨s, hs⟩ := hf a
    refine ⟨s, fun p => ?_⟩
    rw [exec_bind, hr]
    exact hs p

theorem still {w : Walk α} (h : Idle w) : Still w := by
  obtain ⟨r, hr⟩ := h
  intro p
  rw [hr]

end Idle

section Examining

variable {n : Node} {kind : Kind} {place : WalkPath} {p q : Progress}

theorem require_idle (field : Option α) (name : String) (kind : Kind) (place : WalkPath) :
    Idle (require field name kind place) := by
  unfold require
  cases field with
  | none => exact .throw _
  | some a => exact .pure ()

theorem checkAsked_idle (n : Node) (kind : Kind) (place : WalkPath) : Idle (checkAsked n kind place) :=
  .bind (require_idle _ _ _ _) fun _ => .bind (require_idle _ _ _ _) fun _ => require_idle _ _ _ _

theorem checkAsked_still (n : Node) (kind : Kind) (place : WalkPath) :
    Still (checkAsked n kind place) :=
  (checkAsked_idle n kind place).still

theorem checkPattern_idle (source : Option String) : Idle (checkPattern source) := by
  unfold checkPattern
  cases source with
  | none => exact .pure ()
  | some source => exact ⟨(compilePattern source).map fun _ => (), fun p => by rw [exec_discard, exec_lift]⟩

theorem checkRange_idle (n : Node) (kind : Kind) (place : WalkPath) :
    Idle (checkRange n kind place) := by
  unfold checkRange
  split
  · exact .pure ()
  · split
    · exact .pure ()
    · exact .throw _

theorem checkRules_idle (n : Node) (kind : Kind) (place : WalkPath) :
    Idle (checkRules n kind place) :=
  .bind (checkRange_idle _ _ _) fun _ => .bind (checkPattern_idle _) fun _ =>
    .bind (checkPattern_idle _) fun _ => checkPattern_idle _

theorem checkRules_still (n : Node) (kind : Kind) (place : WalkPath) :
    Still (checkRules n kind place) :=
  (checkRules_idle n kind place).still

theorem includedNodes_explores (hs : Stands p.includes doc place n)
    (hk : n.kindAt place = .ok .inclusion) :
    Explores sp fs doc (place <+: ·) p.includes
      ((includedNodes sp fs n place).exec p).2.includes := by
  rw [exec_includedNodes]
  cases hc : p.includes.nodes? place with
  | some nodes => exact .refl
  | none =>
    cases ho : p.includes.openAt sp fs n place with
    | error e => exact .refl
    | ok o => exact .single (.opened (List.prefix_refl _) hs hk hc ho)

theorem standAt_of_includedNodes {nodes : List Node} (hs : Stands p.includes doc place n)
    (hk : n.kindAt place = .ok .inclusion)
    (h : (includedNodes sp fs n place).exec p = (.ok nodes, q)) :
    StandAt q.includes doc place 0 nodes := by
  have hx : Explores sp fs doc (place <+: ·) p.includes q.includes := by
    have hi : Explores sp fs doc (place <+: ·) p.includes
        ((includedNodes sp fs n place).exec p).2.includes := includedNodes_explores hs hk
    rwa [h] at hi
  have hc : q.includes.nodes? place = some nodes := by
    rcases includedNodes_ok h with ⟨hc, rfl⟩ | ⟨hc, o, -, hn, hq⟩
    · exact hc
    · rw [hq]
      exact Option.map_eq_some_iff.mpr ⟨_, IncludeCache.find?_add_self hc, hn⟩
  have hi := (hs.grown hx.grown).inside
  rwa [inside_of_inclusion hk hc] at hi

theorem standAt_of_branch {cache : IncludeCache} (hs : Stands cache doc place n)
    (hk : n.kindAt place = .ok .branch) : StandAt cache doc place 0 (n.interview.getD []) := by
  have hi := hs.inside
  rwa [inside_of_branch hk] at hi

theorem checkNode_explores_of_branch {descend : List Node → WalkPath → Walk Unit}
    (hd : ∀ nodes place p, StandAt p.includes doc place 0 nodes →
      Explores sp fs doc (place <+: ·) p.includes ((descend nodes place).exec p).2.includes)
    (hs : Stands p.includes doc place n)
    (hb : n.kindAt place = .ok .branch → Explores sp fs doc (place <+: ·) p.includes
      ((checkNodes sp fs descend place 0 (n.interview.getD [])).exec p).2.includes) :
    Explores sp fs doc (place <+: ·) p.includes ((checkNode sp fs descend place n).exec p).2.includes := by
  rw [checkNode_eq]
  have hrules (kind : Kind) (q : Progress) : Explores sp fs doc (place <+: ·) q.includes
      ((checkRules n kind place).exec q).2.includes := (checkRules_still n kind place).explores _ q
  refine explores_bind (Still.explores (.lift _) _ p) fun kind q hl => ?_
  rw [exec_lift] at hl
  obtain ⟨hk, rfl⟩ := Prod.mk.inj hl
  cases kind with
  | branch => exact explores_bind (hb hk) fun _ q _ => hrules .branch q
  | inclusion =>
    refine explores_bind (includedNodes_explores hs hk) fun nodes q hi => ?_
    exact explores_bind (hd nodes place q (standAt_of_includedNodes hs hk hi)) fun _ q _ =>
      hrules .inclusion q
  | question =>
    exact explores_bind ((checkAsked_still n .question place).explores _ p) fun _ q _ => hrules _ q
  | set => exact explores_bind ((checkAsked_still n .set place).explores _ p) fun _ q _ => hrules _ q
  | reset =>
    dsimp only
    split
    · exact .refl
    · exact hrules .reset p
  | notice => exact hrules .notice p
  | update => exact hrules .update p

theorem checkNodes_explores {descend : List Node → WalkPath → Walk Unit}
    (hd : ∀ nodes place p, StandAt p.includes doc place 0 nodes →
      Explores sp fs doc (place <+: ·) p.includes ((descend nodes place).exec p).2.includes)
    {parent : WalkPath} {index : Nat} {nodes : List Node} {p : Progress}
    (hs : StandAt p.includes doc parent index nodes) :
    Explores sp fs doc (parent <+: ·) p.includes
      ((checkNodes sp fs descend parent index nodes).exec p).2.includes := by
  match nodes with
  | [] => exact .refl
  | n :: rest =>
    have hsize := n.sizeOf_getD_interview
    have hnode := checkNode_explores_of_branch hd hs.head fun hk =>
      checkNodes_explores hd (standAt_of_branch hs.head hk)
    rw [checkNodes]
    refine explores_bind (hnode.mono fun at_ h => (List.prefix_append _ _).trans h) fun _ q hq => ?_
    have hg := hnode.grown
    rw [hq] at hg
    exact checkNodes_explores hd (hs.tail.grown hg)
termination_by sizeOf nodes

theorem checkNode_explores {descend : List Node → WalkPath → Walk Unit}
    (hd : ∀ nodes place p, StandAt p.includes doc place 0 nodes →
      Explores sp fs doc (place <+: ·) p.includes ((descend nodes place).exec p).2.includes)
    (hs : Stands p.includes doc place n) :
    Explores sp fs doc (place <+: ·) p.includes
      ((checkNode sp fs descend place n).exec p).2.includes :=
  checkNode_explores_of_branch hd hs fun hk => checkNodes_explores hd (standAt_of_branch hs hk)

theorem checkLevels_explores (sp : SearchPath) (fs : FileSystem) (levels : Nat) {nodes : List Node} {place : WalkPath}
    (hs : StandAt p.includes doc place 0 nodes) :
    Explores sp fs doc (place <+: ·) p.includes
      ((checkLevels sp fs levels nodes place).exec p).2.includes := by
  induction levels generalizing nodes place p with
  | zero => exact .refl
  | succ levels ih => exact checkNodes_explores (fun nodes place p => ih) hs

theorem check_explores (sp : SearchPath) (fs : FileSystem) (doc : List Node) (p : Progress) :
    Explores sp fs doc (fun _ => True) p.includes ((check sp fs doc).exec p).2.includes := by
  rw [check, exec_bind, exec_get]
  exact (checkLevels_explores sp fs _ (standAt_doc _ _)).mono fun _ _ => trivial

end Examining

theorem scan_opens (sp : SearchPath) (fs : FileSystem) (doc : List Node) (p : Progress) :
    ((scan sp fs doc).exec p).2.includes = p.includes ∨
      Opens sp fs doc (fun _ => True) p.includes ((scan sp fs doc).exec p).2.includes := by
  obtain ⟨commits, hc⟩ := scan_course sp fs doc p
  generalize (scan sp fs doc).exec p = ending at hc
  obtain ⟨r, q⟩ := ending
  obtain ⟨store, -, -, ⟨-, rfl⟩ | ⟨e, -, rfl⟩ | ⟨⟨place, n⟩, hv, hd, hs⟩⟩ := hc.ends
  · exact .inl rfl
  · exact .inl rfl
  · cases halt_of_stop? hs with
    | failed => exact .inl rfl
    | committed => exact .inl rfl
    | opened hk hn ho => exact .inr (.opened trivial (mem_tree_iff.mp hv) hk hn ho)
    | asked => exact .inl rfl
    | reset _ hq => exact .inl hq

theorem scan_explores (sp : SearchPath) (fs : FileSystem) (doc : List Node) (p : Progress) :
    Explores sp fs doc (fun _ => True) p.includes ((scan sp fs doc).exec p).2.includes := by
  rcases scan_opens sp fs doc p with he | ho
  · rw [he]
  · exact .single ho

end Walk
end Interview
