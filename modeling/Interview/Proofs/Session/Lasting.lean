import Interview.Proofs.Session.Conversation

/-! Answers that last. In a document without resets and without force no answer is lost, and none is asked
for again, however long the conversation goes on. -/

namespace Interview.Conversation

open Walk (Asks)

variable {a b : Conversation} {fs : FileSystem}

/-- No node is forced, and no enabled one resets anything. -/
structure Lasting (a : Conversation) : Prop where
  unforced : ∀ v ∈ a.nodes, v.2.force = false
  resetless : ∀ v ∈ a.nodes, v.2.disabled = false → v.2.kindAt v.1 ≠ .ok .reset

theorem Lasting.of_subset (h : Lasting b) (hs : a.nodes ⊆ b.nodes) : Lasting a where
  unforced v hv := h.unforced v (hs hv)
  resetless v hv := h.resetless v (hs hv)

/-- The commits from one moment of a conversation to a later one, each by a node of the document. -/
structure Retains (a b : Conversation) (commits : List Commit) : Prop where
  chain : Commit.Chain a.session.store commits b.session.store
  gentle : ∀ c ∈ commits, c.Gentle
  by_node : ∀ c ∈ commits, ∃ v ∈ b.nodes, c.By v

theorem Retains.keeps {commits : List Commit} (h : Retains a b commits) :
    a.session.store.Keeps b.session.store
      fun key => ∃ c ∈ commits, c.item.kind = .update ∧ c.item.key = key :=
  h.chain.keeps h.gentle

theorem Retains.append {c : Conversation} {commits later : List Commit} (h : Retains a b commits)
    (h' : Retains b c later) (hs : b.nodes ⊆ c.nodes) : Retains a c (commits ++ later) where
  chain := h.chain.append h'.chain
  gentle d hd := (List.mem_append.mp hd).elim (h.gentle d) (h'.gentle d)
  by_node d hd := by
    rcases List.mem_append.mp hd with hd | hd
    · obtain ⟨v, hv, hb⟩ := h.by_node d hd
      exact ⟨v, hs hv, hb⟩
    · exact h'.by_node d hd

/-- What was answered is there, and a node of the document waits for the pending answer. -/
structure Held (a : Conversation) : Prop where
  answered : ∀ key ∈ a.answered, a.session.store.contains key = true
  pending : ∀ item, a.pending = some item → ∃ v ∈ a.nodes, Asks a.session.store v item

theorem held_opening (s : Session) : Held (opening s) := ⟨by simp [opening], by simp [opening]⟩

theorem Step.retains (h : Step a b) (hl : Lasting b) (ha : Held a) :
    Held b ∧ ∃ commits, Retains a b commits := by
  have hs := h.nodes_subset
  have hla := hl.of_subset hs
  cases h with
  | @pass fs r t hscan =>
    obtain rfl : (a.session.scan fs).2 = t := by rw [hscan]
    obtain ⟨commits, hchain, hc⟩ :=
      Walk.scan_commits hla.unforced hla.resetless a.session.search fs
    have hr : Retains a ⟨(a.session.scan fs).2, a.restarts + Session.repeats r, a.answered,
        Session.foundIn r⟩ commits := by
      refine ⟨hchain, fun c hm => (hc c hm).1, fun c hm => ?_⟩
      obtain ⟨-, v, hv, hb⟩ := hc c hm
      exact ⟨v, hs hv, hb⟩
    refine ⟨⟨fun key hk => hr.keeps.found key (ha.answered key hk), fun item hi => ?_⟩, _, hr⟩
    obtain rfl := Session.foundIn_eq_some hi
    obtain ⟨-, v, hv, hasks⟩ := Walk.scan_found (Session.exec_of_scan hscan)
    exact ⟨v, hs hv, hasks⟩
  | @answer item reply value t hp hanswer =>
    obtain ⟨v, hv, hasks⟩ := ha.pending item hp
    obtain ⟨store, hw, rfl⟩ := Session.answer_eq_ok hanswer
    have hwrite := Item.write_ok hw
    have habsent := Walk.absent_of_isDue (hla.unforced v hv) hasks.due
    have hr : Retains a ⟨a.session.withStore store, a.restarts, a.answered ++ [item.key], none⟩
        [⟨item, value, a.session.store, store⟩] := by
      refine ⟨.cons (c := ⟨item, value, a.session.store, store⟩) hwrite .nil, fun c hc => ?_,
        fun c hc => ?_⟩
      · obtain rfl := List.mem_singleton.mp hc
        exact Commit.gentle_of_absent hwrite habsent
      · obtain rfl := List.mem_singleton.mp hc
        exact ⟨v, hv, hasks.enabled, hasks.kind, hasks.place, hasks.key⟩
    refine ⟨⟨fun key hk => ?_, by simp⟩, _, hr⟩
    rcases List.mem_append.mp hk with hk | hk
    · exact hr.keeps.found key (ha.answered key hk)
    · rw [List.mem_singleton.mp hk]
      exact Settings.contains_write_self hwrite

theorem Leads.retains (h : Leads a b) (hl : Lasting b) (ha : Held a) :
    Held b ∧ ∃ commits, Retains a b commits := by
  induction h with
  | refl => exact ⟨ha, [], .nil, by simp, by simp⟩
  | @tail b c _ hs ih =>
    obtain ⟨hb, commits, hr⟩ := ih (hl.of_subset hs.nodes_subset)
    obtain ⟨hc, later, hr'⟩ := hs.retains hl hb
    exact ⟨hc, _, hr.append hr' hs.nodes_subset⟩

/-- Without resets and without force: what is found at one moment is found at every later one, a leaf
changes only in the commit of an update to its key, and no key that was answered is asked for again. -/
theorem answers_last {s : Session} (ha : Leads (opening s) a) (hb : Leads a b)
    (hf : ∀ v ∈ b.nodes, v.2.force = false)
    (hr : ∀ v ∈ b.nodes, v.2.disabled = false → v.2.kindAt v.1 ≠ .ok .reset) :
    (∃ commits, Commit.Chain a.session.store commits b.session.store ∧
      (a.session.store :: commits.map Commit.after).Pairwise
        (fun before after => ∀ key, before.contains key = true → after.contains key = true) ∧
      ∀ c ∈ commits, (∃ v ∈ b.nodes, c.By v) ∧
        ∀ key value, c.before.leaf? key = some value →
          c.after.leaf? key = some value ∨ c.item.kind = .update ∧ c.item.key = key) ∧
      ∀ item, b.pending = some item → item.key ∉ b.answered := by
  have hl : Lasting b := ⟨hf, hr⟩
  obtain ⟨hheld, -⟩ := ha.retains (hl.of_subset hb.nodes_subset) (held_opening s)
  obtain ⟨hheld', commits, hc⟩ := hb.retains hl hheld
  refine ⟨⟨commits, hc.chain, hc.chain.found_later hc.gentle,
    fun c hm => ⟨hc.by_node c hm, fun key value hk => ?_⟩⟩, fun item hi hk => ?_⟩
  · by_cases hu : c.item.kind = .update ∧ c.item.key = key
    · exact .inr hu
    · exact .inl ((hc.gentle c hm).leaf key value hu hk)
  · obtain ⟨v, hv, hasks⟩ := hheld'.pending item hi
    have habsent := Walk.absent_of_isDue (hl.unforced v hv) hasks.due
    rw [hheld'.answered item.key hk] at habsent
    cases habsent

def survey (store : Settings) : Session where
  document := [{ kind := some "update", key := some "n" }, { kind := some "question", key := some "a" },
    { kind := some "question", key := some "b" }]
  unknownFields := []
  search := .none
  ceiling := 0
  strict := false
  progress := ⟨store, .empty, []⟩

def surveyItem (place : WalkPath) (key : String) : Item where
  place := place
  kind := .question
  key := key
  node := { kind := some "question", key := some key }
  range := none
  pattern := none

theorem answers_last_in_survey :
    ∃ b, Leads (opening (survey .empty)) b ∧ b.answered = ["a"] ∧
      b.pending = some (surveyItem [2] "b") ∧ "b" ∉ b.answered := by
  have hfirst : (survey .empty).scan ⟨[], []⟩ =
      (.ok (.found (surveyItem [1] "a")), survey ⟨[("n", .int 1)]⟩) := rfl
  have hanswer : (survey ⟨[("n", .int 1)]⟩).answer (surveyItem [1] "a") "x" =
      (.ok (.str "x"), survey ⟨[("n", .int 1), ("a", .str "x")]⟩) := rfl
  have hnext : (survey ⟨[("n", .int 1), ("a", .str "x")]⟩).scan ⟨[], []⟩ =
      (.ok (.found (surveyItem [2] "b")), survey ⟨[("n", .int 2), ("a", .str "x")]⟩) := rfl
  have hasked : Leads (opening (survey .empty)) ⟨survey ⟨[("n", .int 1)]⟩, 0, [], surveyItem [1] "a"⟩ :=
    .single (Step.pass (a := opening (survey .empty)) hfirst)
  have hanswered : Leads (opening (survey .empty))
      ⟨survey ⟨[("n", .int 1), ("a", .str "x")]⟩, 0, ["a"], none⟩ :=
    hasked.tail (@Step.answer _ (surveyItem [1] "a") _ _ _ rfl hanswer)
  have hb : Leads (opening (survey .empty))
      ⟨survey ⟨[("n", .int 2), ("a", .str "x")]⟩, 0, ["a"], surveyItem [2] "b"⟩ :=
    hanswered.tail (Step.pass (a := ⟨survey ⟨[("n", .int 1), ("a", .str "x")]⟩, 0, ["a"], none⟩) hnext)
  have hnodes : nodes ⟨survey ⟨[("n", .int 2), ("a", .str "x")]⟩, 0, ["a"], surveyItem [2] "b"⟩ =
      [([0], { kind := some "update", key := some "n" }),
        ([1], { kind := some "question", key := some "a" }),
        ([2], { kind := some "question", key := some "b" })] := rfl
  have hkinds : Kind.ofName? "update" = some .update ∧ Kind.ofName? "question" = some .question :=
    ⟨rfl, rfl⟩
  have hlast := answers_last .refl hb (by simp [hnodes]) (by simp [hnodes, Node.kindAt, hkinds])
  exact ⟨_, hb, rfl, rfl, hlast.2 _ rfl⟩

end Interview.Conversation
