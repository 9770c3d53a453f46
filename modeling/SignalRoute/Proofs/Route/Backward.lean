import SignalRoute.Proofs.Route.Appending

/-!
# Plans only refer backwards

A plan refers to its own stages by their numbers: cursors do, and so do the names of buffers and of
producers.  None of these numbers is known when the stage that it stands for is yet to come.  So a
stage only reads stages before it, an operand is only fed from stages before its own, and everything
else refers to stages that are there (`Plan.Backward`).

Numbers come back from where they were put: from branches that were left open, from the table of
names, from a draft that others have built.  What holds of the plan is therefore kept together with
what holds of these (`Draft.Backward`), and every operation keeps it, whether or not the expression
that it belongs to comes to its end (`Draft.backward_build`).

The invariant has to be about drafts and not about plans, because a plan forgets where its numbers
came from.  It is kept by acts and not by moves: the operands of a new stage are fed in a move of
their own, which says nothing about where the producers come from.
-/

set_option autoImplicit false

namespace SignalRoute

/-- The stage that is named, if it is one of the plan, is among the first `n`. -/
def NamedRef.Before (r : NamedRef) (n : Nat) : Prop := ∀ i, r = .planned i → i < n

theorem NamedRef.Before.mono {r : NamedRef} {m n : Nat} (h : r.Before m) (hle : m ≤ n) :
    r.Before n := fun i hi => Nat.lt_of_lt_of_le (h i hi) hle

/-- Stage `k` reads stages before it. -/
structure PlannedStage.Backward (stage : PlannedStage) (k : Nat) : Prop where
  source : stage.source.Among k
  fuse : ∀ r ∈ stage.fuse, r.Before k

/-- Every reference to a stage of the plan goes backwards, or to a stage that is there. -/
structure Plan.Backward (p : Plan) : Prop where
  stages : ∀ (k : Nat) (stage : PlannedStage), p.stages[k]? = some stage → stage.Backward k
  feedback : ∀ f ∈ p.feedback, f.producer.Before f.stage ∧ f.stage < p.stages.length
  reactions : ∀ r ∈ p.reactions, r.source.Among p.stages.length
  streams : ∀ c ∈ p.streams, c.Among p.stages.length
  logs : ∀ c ∈ p.logs, c.Among p.stages.length

theorem Plan.backward_empty : Plan.empty.Backward where
  stages k stage h := by cases h
  feedback := List.forall_mem_nil _
  reactions := List.forall_mem_nil _
  streams := List.forall_mem_nil _
  logs := List.forall_mem_nil _

/-- A draft whose plan refers backwards, and of which nothing can refer forwards. -/
structure Draft.Backward (c : Cursor) (d : Draft) : Prop where
  plan : d.plan.Backward
  anchored : d.Anchored c
  names : ∀ e ∈ d.names, e.2 < d.plan.stages.length

/-! ## Names -/

namespace Draft

variable {c : Cursor} {d : Draft} {name : String}

/-- What is found by a name is on the board, or it is a stage of the plan. -/
theorem before_of_lookup {x : NamedRef × Signal} (h : d.lookup name = .ok x) :
    x.1.Before d.plan.stages.length := by
  rw [lookup] at h
  split at h
  · rename_i i stage hstage
    obtain ⟨k, -, hk⟩ := Option.bind_eq_some_iff.1 hstage
    obtain ⟨stage', hget, heq⟩ := Option.map_eq_some_iff.1 hk
    cases heq
    cases h
    rintro j ⟨⟩
    exact (List.getElem?_eq_some_iff.1 hget).1
  · split at h <;> cases h
    rintro _ ⟨⟩

theorem before_of_lookupBuffer {x : NamedRef × Signal} (h : d.lookupBuffer name = .ok x) :
    x.1.Before d.plan.stages.length := by
  rw [lookupBuffer] at h
  split at h
  · rename_i i stage hstage
    obtain ⟨k, -, hk⟩ := Option.bind_eq_some_iff.1 hstage
    obtain ⟨stage', hget, heq⟩ := Option.map_eq_some_iff.1 hk
    cases heq
    split at h <;> cases h
    rintro j ⟨⟩
    exact (List.getElem?_eq_some_iff.1 hget).1
  · split at h
    · split at h <;> cases h
      rintro _ ⟨⟩
    · cases h

/-- Operands are fed from the producers, and all into one stage. -/
theorem of_mem_feeds {stage : Nat} {offset width : UInt8} {producers : List (NamedRef × Signal)}
    {f : Feedback} (h : f ∈ Drafting.feeds stage offset width producers) :
    f.stage = stage ∧ ∃ x ∈ producers, f.producer = x.1 := by
  induction producers generalizing offset with
  | nil => cases h
  | cons x rest ih =>
    rcases List.mem_cons.1 h with rfl | hlater
    · exact ⟨rfl, x, List.mem_cons_self, rfl⟩
    · obtain ⟨hstage, y, hy, hproducer⟩ := ih hlater
      exact ⟨hstage, y, List.mem_cons_of_mem _ hy, hproducer⟩

/-! ## Operations

One lemma for each list of the plan that grows, and one for a stage that is named.  What is added is
at the end or refers to what is there, so the references that were there before need no thought.
-/

/-- What is put behind the other stages reads only these. -/
theorem plan_backward_addStage (h : d.plan.Backward) {stage : PlannedStage}
    (hstage : stage.Backward d.plan.stages.length) : (d.addStage stage).plan.Backward := by
  have hmore := Nat.le_succ d.plan.stages.length
  constructor <;> try rw [length_addStage]
  · intro k old hold
    change (d.plan.stages ++ [stage])[k]? = some old at hold
    rcases Nat.lt_or_ge k d.plan.stages.length with hlt | hge
    · rw [List.getElem?_append_left hlt] at hold
      exact h.stages k old hold
    · rw [List.getElem?_append_right hge, List.getElem?_singleton] at hold
      split at hold <;> cases hold
      obtain rfl : k = d.plan.stages.length := by omega
      exact hstage
  · exact fun f hf => ⟨(h.feedback f hf).1, Nat.lt_succ_of_lt (h.feedback f hf).2⟩
  · exact fun r hr => (h.reactions r hr).mono hmore
  · exact fun c hc => (h.streams c hc).mono hmore
  · exact fun c hc => (h.logs c hc).mono hmore

theorem plan_backward_addFeedback (h : d.plan.Backward) {feedback : List Feedback}
    (hfeedback : ∀ f ∈ feedback, f.producer.Before f.stage ∧ f.stage < d.plan.stages.length) :
    (d.addFeedback feedback).plan.Backward :=
  { h with feedback := List.forall_mem_append.2 ⟨h.feedback, hfeedback⟩ }

/-- A name changes nothing that a stage refers to. -/
theorem plan_backward_nameStage (h : d.plan.Backward) (i : Nat) (name : String) :
    (d.nameStage i name).plan.Backward := by
  constructor <;> try rw [length_nameStage]
  · intro k stage hstage
    change (d.plan.stages.modify i _)[k]? = some stage at hstage
    rw [List.getElem?_modify, Option.map_eq_map, Option.map_eq_some_iff] at hstage
    obtain ⟨old, hold, rfl⟩ := hstage
    obtain ⟨hsource, hfuse⟩ := h.stages k old hold
    split
    · exact ⟨hsource, hfuse⟩
    · exact ⟨hsource, hfuse⟩
  · exact h.feedback
  · exact h.reactions
  · exact h.streams
  · exact h.logs

/-- A new stage, with operands that are fed from what is found by names. -/
theorem plan_backward_fed (h : d.Backward c) {stage : PlannedStage}
    (hstage : stage.Backward d.plan.stages.length) {producers : List (NamedRef × Signal)}
    (hproducers : ∀ x ∈ producers, x.1.Before d.plan.stages.length) (offset width : UInt8) :
    ((d.addStage stage).addFeedback
      (Drafting.feeds d.plan.stages.length offset width producers)).plan.Backward := by
  refine plan_backward_addFeedback (plan_backward_addStage h.plan hstage) fun f hf => ?_
  obtain ⟨hat, x, hx, hproducer⟩ := of_mem_feeds hf
  rw [hat, hproducer, length_addStage]
  exact ⟨hproducers x hx, Nat.lt_succ_self _⟩

theorem Backward.move {x y : Cursor × Draft} (hmove : Draft.Move x y)
    (hfeedback : y.2.plan.feedback = x.2.plan.feedback) (h : x.2.Backward x.1) :
    y.2.Backward y.1 := by
  have hanchored := h.anchored.move hmove
  cases hmove with
  | @emitted c d p buffers i hemits hi =>
    refine ⟨plan_backward_addStage h.plan ⟨h.anchored.cursor, fun r hr => ?_⟩, hanchored,
      fun e he => ?_⟩
    · obtain ⟨b, hb, rfl⟩ := List.mem_map.1 hr
      obtain ⟨name, hname⟩ := hemits.lookupBuffer hb
      exact before_of_lookupBuffer hname
    · rw [length_addStage]
      exact Nat.lt_succ_of_lt (h.names e he)
  | @named c d i name hstage hnamed hknown hunnamed =>
    refine ⟨plan_backward_nameStage h.plan i name, hanchored, fun e he => ?_⟩
    rw [length_nameStage]
    rcases List.mem_cons.1 he with rfl | hold
    · exact h.anchored.cursor i hstage
    · exact h.names e hold
  | fed c d feedback =>
    refine ⟨plan_backward_addFeedback h.plan fun f hf => ?_, hanchored, h.names⟩
    rw [List.append_right_eq_self.1 hfeedback] at hf
    cases hf
  | reacted c d commands =>
    refine ⟨{ h.plan with reactions := List.forall_mem_append.2 ⟨h.plan.reactions, ?_⟩ },
      hanchored, h.names⟩
    exact List.forall_mem_singleton.2 h.anchored.cursor
  | streamed c d =>
    refine ⟨{ h.plan with streams := List.forall_mem_append.2 ⟨h.plan.streams, ?_⟩ },
      hanchored, h.names⟩
    exact List.forall_mem_singleton.2 h.anchored.cursor
  | @logged c d hdata =>
    refine ⟨{ h.plan with logs := List.forall_mem_append.2 ⟨h.plan.logs, ?_⟩ },
      hanchored, h.names⟩
    exact List.forall_mem_singleton.2 h.anchored.cursor
  | opened => exact ⟨h.plan, hanchored, h.names⟩
  | returned => exact ⟨h.plan, hanchored, h.names⟩
  | entered => exact ⟨h.plan, hanchored, h.names⟩
  | closed => exact ⟨h.plan, hanchored, h.names⟩

/-- **Every operation keeps a draft from referring forwards.** -/
theorem Backward.act {x y : Cursor × Draft} (hact : Draft.Act x y) (h : x.2.Backward x.1) :
    y.2.Backward y.1 := by
  have hanchored : y.2.Anchored y.1 :=
    hact.moves.keeps (I := fun x => x.2.Anchored x.1) (fun _ _ hmove => Anchored.move hmove)
      h.anchored
  have hnames {d : Draft} {c : Cursor} (h : d.Backward c) (stage : PlannedStage) :
      ∀ e ∈ d.names, e.2 < (d.addStage stage).plan.stages.length := fun e he => by
    rw [length_addStage]
    exact Nat.lt_succ_of_lt (h.names e he)
  cases hact with
  | moved hmove hfeedback => exact h.move hmove hfeedback
  | compared hproducers hp hi =>
    refine ⟨plan_backward_fed h ⟨h.anchored.cursor, List.forall_mem_nil _⟩ (fun x hx => ?_) _ _,
      hanchored, hnames h _⟩
    obtain ⟨name, -, hname⟩ := exists_of_mem_mapM hproducers hx
    exact before_of_lookup hname
  | computed hproducer hp hi =>
    refine ⟨plan_backward_fed h ⟨h.anchored.cursor, List.forall_mem_nil _⟩ (fun x hx => ?_) _ _,
      hanchored, hnames h _⟩
    rw [List.mem_singleton.1 hx]
    exact before_of_lookup hproducer

/-- **However a draft is built, it refers backwards only.** -/
theorem backward_build (device : Device) (known : List KnownProcessor)
    (expressions : List (Signal × List Step)) :
    ∃ c, ((Draft.start device known).build expressions).Backward c := by
  suffices hall : ∀ (expressions : List (Signal × List Step)) (c : Cursor) (d : Draft),
      d.Backward c → ∃ next, (d.build expressions).Backward next by
    refine hall expressions ⟨default, none⟩ (start device known) ⟨Plan.backward_empty, ?_, ?_⟩
    · exact ⟨Cursor.among_root _ _, fun b hb => nomatch hb⟩
    · exact fun e he => nomatch he
  intro expressions
  induction expressions with
  | nil => exact fun c d h => ⟨c, h⟩
  | cons e rest ih =>
    intro c d h
    have hbegun : d.Backward ⟨e.1, none⟩ :=
      ⟨h.plan, ⟨Cursor.among_root _ _, h.anchored.branches⟩, h.names⟩
    obtain ⟨next, hacts, -⟩ := Drafting.acts_run e.2 ⟨e.1, none⟩ d
    refine ih next (Step.run ⟨e.1, none⟩ e.2 d).2 ?_
    suffices hkept : ∀ x, Relation.ReflTransGen Draft.Act (⟨e.1, none⟩, d) x → x.2.Backward x.1 from
      hkept _ hacts
    intro x hx
    induction hx with
    | refl => exact hbegun
    | tail _ hact ih => exact ih.act hact

end Draft
end SignalRoute
