import Interview.Proofs.Walk.Expansion
import Interview.Proofs.Walk.Remaining

/-! Examinations of one document from different caches. Which document an include node opens follows from
the files alone, so it makes no difference to an examination how much of it was opened before. -/

namespace Interview

namespace IncludeCache

variable {cache other : IncludeCache} {sp : SearchPath} {fs : FileSystem} {n : Node} {place : WalkPath}
  {o o' : Opened}

theorem mem_ancestors {above : WalkPath} (h : above ∈ ancestors place) :
    above ≠ [] ∧ above <+: place ∧ above ≠ place := by
  obtain ⟨k, hk, rfl⟩ := List.mem_map.mp h
  have hlt := List.mem_range.mp hk
  have hlen : (place.take (k + 1)).length = k + 1 := by
    rw [List.length_take]
    omega
  refine ⟨fun hn => ?_, List.take_prefix _ _, fun he => ?_⟩
  · simp [hn] at hlen
  · rw [he] at hlen
    omega

theorem openAt_congr (h : cache.enclosingFiles place = other.enclosingFiles place) :
    cache.openAt sp fs n place = other.openAt sp fs n place := by
  simp only [openAt, h]

/-- Whatever was opened before, a node opens no other document. -/
theorem openAt_unique (h : cache.openAt sp fs n place = .ok o)
    (h' : other.openAt sp fs n place = .ok o') : o' = o := by
  have hnone (file : Path) : file ∉ empty.enclosingFiles place := by
    rw [mem_enclosingFiles_iff rfl]
    rintro (hr | ⟨above, inc, -, -, hi, -⟩)
    · cases hr
    · cases hi
  have ho := openAt_of_openAt h (hnone _)
  have ho' := openAt_of_openAt h' (hnone _)
  exact Except.ok.inj (ho'.symm.trans ho)

end IncludeCache

namespace Walk

variable {α β : Type} {sp : SearchPath} {fs : FileSystem} {doc : List Node}

namespace Expands

variable {part whole : IncludeCache} {place : WalkPath} {n : Node}

theorem stands (h : Expands sp fs doc part whole) (hs : Stands part doc place n) :
    Stands whole doc place n :=
  hs.mono fun _ _ _ _ _ _ => h.nodes?

theorem find?_above (h : Expands sp fs doc part whole) (hs : Stands part doc place n)
    {above : WalkPath} (hp : above <+: place) (hne : above ≠ place) (hn : above ≠ []) :
    whole.find? above = part.find? above := by
  obtain ⟨m, hm, -⟩ := hs.above hp hne hn
  cases hpart : part.find? above with
  | some inc => exact h.found above inc hpart
  | none =>
    cases hwhole : whole.find? above with
    | none => rfl
    | some inc =>
      obtain ⟨m', hm', hk⟩ := h.nested.stands above inc hwhole
      obtain rfl := hm'.unique (h.stands hm)
      have hopened := hs.opened_above hp hne hm hk
      rw [IncludeCache.find?_eq_none.mp hpart] at hopened
      cases hopened

theorem enclosingFiles_eq (h : Expands sp fs doc part whole) (hs : Stands part doc place n) :
    whole.enclosingFiles place = part.enclosingFiles place := by
  have hfiles : (IncludeCache.ancestors place).filterMap (fun at_ => (whole.find? at_).map Included.file) =
      (IncludeCache.ancestors place).filterMap fun at_ => (part.find? at_).map Included.file := by
    refine List.filterMap_congr fun above ha => ?_
    obtain ⟨hn, hp, hne⟩ := IncludeCache.mem_ancestors ha
    rw [h.find?_above hs hp hne hn]
  rw [IncludeCache.enclosingFiles, IncludeCache.enclosingFiles, h.root, hfiles]

theorem opens_both (h : Expands sp fs doc part whole) (hs : Stands part doc place n)
    (hk : n.kindAt place = .ok .inclusion) (hw : whole.nodes? place = none) {o : IncludeCache.Opened}
    (ho : whole.openAt sp fs n place = .ok o) :
    Expands sp fs doc (part.add place o) (whole.add place o) := by
  have hpart : part.nodes? place = none := by
    cases hp : part.nodes? place with
    | none => rfl
    | some nodes =>
      rw [h.nodes? hp] at hw
      cases hw
  have hadded := IncludeCache.find?_add_self (o := o) hpart
  have hopens : Opens sp fs doc (fun _ => True) whole (whole.add place o) :=
    .opened trivial (h.stands hs) hk hw ho
  refine ⟨h.root, fun at_ inc hi => ?_, fun at_ inc hnone hi => ?_, h.nested.opens hopens⟩
  · rcases IncludeCache.find?_add hi with hold | ⟨rfl, rfl⟩
    · exact (whole.grown_add place o).find? (h.found at_ inc hold)
    · exact IncludeCache.find?_add_self hw
  · rcases IncludeCache.find?_add hi with hold | ⟨rfl, rfl⟩
    · obtain ⟨m, cache, o', hm, ho', he⟩ := h.missing at_ inc (IncludeCache.find?_none_of_add hnone) hold
      exact ⟨m, cache, o', hm.grown (whole.grown_add place o), ho', he⟩
    · rw [hadded] at hnone
      cases hnone

end Expands

/-- The ends of two runs of a walk, one from some of the documents and one from more of them: they answer
alike, and the documents of the one are again among those of the other. -/
structure Alike (sp : SearchPath) (fs : FileSystem) (doc : List Node)
    (ending ending' : Except Error α × Progress) : Prop where
  answer : ending'.1 = ending.1
  expands : Expands sp fs doc ending.2.includes ending'.2.includes

section Examining

variable {p p' : Progress}

theorem Alike.bind {w : Walk α} {f : α → Walk β} (hw : Alike sp fs doc (w.exec p) (w.exec p'))
    (hf : ∀ a q q', w.exec p = (.ok a, q) → w.exec p' = (.ok a, q') →
      Expands sp fs doc q.includes q'.includes → Alike sp fs doc ((f a).exec q) ((f a).exec q')) :
    Alike sp fs doc ((w >>= f).exec p) ((w >>= f).exec p') := by
  rw [exec_bind, exec_bind]
  cases he : w.exec p with
  | mk r q =>
    cases he' : w.exec p' with
    | mk r' q' =>
      rw [he, he'] at hw
      obtain ⟨rfl, hx⟩ := hw
      cases r' with
      | error e => exact ⟨rfl, hx⟩
      | ok a => exact hf a q q' he he' hx

theorem Idle.alike {w : Walk α} (h : Idle w) (hx : Expands sp fs doc p.includes p'.includes) :
    Alike sp fs doc (w.exec p) (w.exec p') := by
  obtain ⟨r, hr⟩ := h
  rw [hr, hr]
  exact ⟨rfl, hx⟩

theorem includedNodes_alike {n : Node} {place : WalkPath}
    (hx : Expands sp fs doc p.includes p'.includes) (hs : Stands p.includes doc place n)
    (hk : n.kindAt place = .ok .inclusion) :
    Alike sp fs doc ((includedNodes sp fs n place).exec p) ((includedNodes sp fs n place).exec p') := by
  rw [exec_includedNodes, exec_includedNodes]
  have hopen : p'.includes.openAt sp fs n place = p.includes.openAt sp fs n place :=
    IncludeCache.openAt_congr (hx.enclosingFiles_eq hs)
  cases hc : p.includes.nodes? place with
  | some nodes =>
    rw [hx.nodes? hc]
    exact ⟨rfl, hx⟩
  | none =>
    cases hc' : p'.includes.nodes? place with
    | none =>
      rw [hopen]
      cases ho : p.includes.openAt sp fs n place with
      | error e => exact ⟨rfl, hx⟩
      | ok o => exact ⟨rfl, hx.opens_both hs hk hc' (hopen.trans ho)⟩
    | some nodes =>
      -- opened earlier in the second run only, so the first one opens the same document now
      obtain ⟨inc, hi, rfl⟩ := Option.map_eq_some_iff.mp hc'
      obtain ⟨o, ho, hx'⟩ := hx.opens (hx.stands hs) (IncludeCache.find?_eq_none.mpr hc) (by simp [hi])
      have hfound := hx'.found place o.included (IncludeCache.find?_add_self hc)
      obtain rfl : inc = o.included := Option.some.inj (hi.symm.trans hfound)
      rw [ho]
      exact ⟨rfl, hx'⟩

variable {descend : List Node → WalkPath → Walk Unit}

theorem checkNode_alike_of_branch {n : Node} {place : WalkPath}
    (hd : ∀ nodes place p p', Expands sp fs doc p.includes p'.includes →
      StandAt p.includes doc place 0 nodes →
      Alike sp fs doc ((descend nodes place).exec p) ((descend nodes place).exec p'))
    (hx : Expands sp fs doc p.includes p'.includes) (hs : Stands p.includes doc place n)
    (hb : n.kindAt place = .ok .branch →
      Alike sp fs doc ((checkNodes sp fs descend place 0 (n.interview.getD [])).exec p)
        ((checkNodes sp fs descend place 0 (n.interview.getD [])).exec p')) :
    Alike sp fs doc ((checkNode sp fs descend place n).exec p)
      ((checkNode sp fs descend place n).exec p') := by
  rw [checkNode_eq]
  have hrules (kind : Kind) (q q' : Progress) (hx : Expands sp fs doc q.includes q'.includes) :
      Alike sp fs doc ((checkRules n kind place).exec q) ((checkRules n kind place).exec q') :=
    (checkRules_idle n kind place).alike hx
  refine ((Idle.lift _).alike hx).bind fun kind q q' hl hl' hx => ?_
  rw [exec_lift] at hl hl'
  obtain ⟨hk, rfl⟩ := Prod.mk.inj hl
  obtain ⟨-, rfl⟩ := Prod.mk.inj hl'
  cases kind with
  | branch => exact (hb hk).bind fun _ q q' _ _ => hrules .branch q q'
  | inclusion =>
    refine (includedNodes_alike hx hs hk).bind fun nodes q q' hi _ hx => ?_
    exact (hd nodes place q q' hx (standAt_of_includedNodes hs hk hi)).bind
      fun _ q q' _ _ => hrules .inclusion q q'
  | question =>
    exact ((checkAsked_idle n .question place).alike hx).bind fun _ q q' _ _ => hrules .question q q'
  | set => exact ((checkAsked_idle n .set place).alike hx).bind fun _ q q' _ _ => hrules .set q q'
  | reset =>
    dsimp only
    split
    · exact (Idle.throw _).alike hx
    · exact hrules .reset p p' hx
  | notice => exact hrules .notice p p' hx
  | update => exact hrules .update p p' hx

theorem checkNodes_alike
    (he : ∀ nodes place p, StandAt p.includes doc place 0 nodes →
      Explores sp fs doc (place <+: ·) p.includes ((descend nodes place).exec p).2.includes)
    (hd : ∀ nodes place p p', Expands sp fs doc p.includes p'.includes →
      StandAt p.includes doc place 0 nodes →
      Alike sp fs doc ((descend nodes place).exec p) ((descend nodes place).exec p'))
    {parent : WalkPath} {index : Nat} {nodes : List Node} {p p' : Progress}
    (hx : Expands sp fs doc p.includes p'.includes) (hs : StandAt p.includes doc parent index nodes) :
    Alike sp fs doc ((checkNodes sp fs descend parent index nodes).exec p)
      ((checkNodes sp fs descend parent index nodes).exec p') := by
  match nodes with
  | [] => exact ⟨rfl, hx⟩
  | n :: rest =>
    have hsize := n.sizeOf_getD_interview
    have hnode := checkNode_alike_of_branch hd hx hs.head fun hk =>
      checkNodes_alike he hd hx (standAt_of_branch hs.head hk)
    rw [checkNodes]
    refine hnode.bind fun _ q q' hq _ hx => ?_
    have hg := (checkNode_explores he hs.head).grown
    rw [hq] at hg
    exact checkNodes_alike he hd hx (hs.tail.grown hg)
termination_by sizeOf nodes

theorem check_alike (hx : Expands sp fs doc p.includes p'.includes) :
    Alike sp fs doc ((check sp fs doc).exec p) ((check sp fs doc).exec p') := by
  -- the two bounds on the levels differ, but one that is larger than both serves for both
  have hlevels (levels : Nat) : ∀ nodes place p p', Expands sp fs doc p.includes p'.includes →
      StandAt p.includes doc place 0 nodes →
      Alike sp fs doc ((checkUpTo sp fs (fun _ _ => pure ()) levels nodes place).exec p)
        ((checkUpTo sp fs (fun _ _ => pure ()) levels nodes place).exec p') := by
    have hexplores (levels : Nat) : ∀ nodes place p, StandAt p.includes doc place 0 nodes →
        Explores sp fs doc (place <+: ·) p.includes
          ((checkUpTo sp fs (fun _ _ => pure ()) levels nodes place).exec p).2.includes := by
      induction levels with
      | zero => exact fun _ _ _ _ => .refl
      | succ levels ih => exact fun nodes place p hs => checkNodes_explores ih hs
    induction levels with
    | zero => exact fun _ _ _ _ hx _ => ⟨rfl, hx⟩
    | succ levels ih => exact fun nodes place p p' hx hs => checkNodes_alike (hexplores levels) ih hx hs
  have hup := hlevels (p.includes.size + p'.includes.size + fs.fileCount + 1) doc [] p p' hx
    (standAt_doc _ doc)
  rwa [checkUpTo_doc (by omega), checkUpTo_doc (by omega)] at hup

end Examining

theorem Checked.explores_eq {fresh : WalkPath → Prop} {cache new : IncludeCache}
    (h : Checked cache [] 0 doc) (hx : Explores sp fs doc fresh cache new) : new = cache := by
  induction hx with
  | refl => rfl
  | tail _ hs ih =>
    subst ih
    obtain ⟨-, hstands, hk, hn, -⟩ := hs
    have hcached := h.cached_of_mem (mem_tree_iff.mpr hstands) hk
    rw [hn] at hcached
    cases hcached

theorem check_again {q : Progress} {p : Progress} (h : (check sp fs doc).exec p = (.ok (), q))
    (hn : Nested doc p.includes) {q' : Progress} (hq : q'.includes = q.includes) :
    ∃ r, (check sp fs doc).exec q' = (.ok (), r) ∧ r.includes = q.includes := by
  have hx := check_explores sp fs doc p
  rw [h, ← hq] at hx
  have halike := check_alike (.of_explores hx hn)
  have hagain := check_explores sp fs doc q'
  rw [h] at halike
  cases he : (check sp fs doc).exec q' with
  | mk r q'' =>
    rw [he] at halike hagain
    obtain rfl : r = .ok () := halike.answer
    refine ⟨q'', rfl, ?_⟩
    rw [hq] at hagain
    exact (check_checked h).explores_eq hagain

end Walk
end Interview
