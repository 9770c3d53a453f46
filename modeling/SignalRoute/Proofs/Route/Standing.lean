import SignalRoute.Proofs.Route.Linear

/-!
# Where cursors stand

Each cursor of a draft stands on the producer of the route or on the output of an earlier stage, or
on a part of these, at any depth.  `Draft.Grounded` says so of every cursor that a draft keeps, and
`Drafting.grounded_run` that any list of steps keeps it so.

What a stage puts out notifies from the processor module, and so do the channels of a vector and
what an accounter puts before its data (`Signal.Notified.direct`).  The data behind it and the
signals that a fuser joins keep the addresses that they have elsewhere.

Where a cursor stands decides what its address is once the ids are known.  Most parts of an output
have the address of the output, and those that do not are the reason for a theorem about addresses
that is not just an equation (`Proofs.Host.Addresses`).
-/

set_option autoImplicit false

namespace SignalRoute

/-! ## Parts of outputs -/

namespace Signal

/-- A part of a signal, at any depth, or the signal itself. -/
inductive Reaches (s : Signal) : Signal → Prop
  | self : Reaches s s
  | part {t u : Signal} (h : Reaches s t) (hu : u ∈ t.parts) : Reaches s u

/-- A part of a signal that the board notifies of together with it: a channel of a vector, or what
an accounter puts before its data. -/
inductive Direct (s : Signal) : Signal → Prop
  | self : Direct s s
  | channel {t u : Signal} (h : Direct s t) (hvector : t.kind.isVector = true) (hu : u ∈ t.parts) :
    Direct s u
  | lead {t u : Signal} (h : Direct s t) (hkind : t.kind = .accounted)
      (hu : t.parts.head? = some u) : Direct s u

/-- A signal that a processor notifies of.  If it is a vector then its channels are its parts, and
if data follow a count or a time then this is its first part. -/
structure Notified (s : Signal) : Prop where
  isOutput : s.isOutput = true
  vector : s.kind.isVector = true → s.parts = s.channelParts
  accounted : s.kind = .accounted → ∀ u, s.parts.head? = some u →
    u.isOutput = true ∧ u.kind = .integer

theorem Notified.direct {s t : Signal} (h : s.Notified) (ht : s.Direct t) : t.Notified := by
  induction ht with
  | self => exact h
  | channel _ hvector hu ih =>
    rw [ih.vector hvector, mem_channelParts] at hu
    obtain ⟨scale, shape, k, -, -, rfl⟩ := hu
    refine ⟨ih.isOutput, fun hv => ?_, fun hk => ?_⟩
    · cases hv
    · cases hk
  | lead _ hkind hu ih =>
    obtain ⟨hout, hinteger⟩ := ih.accounted hkind _ hu
    refine ⟨hout, fun hv => ?_, fun hk => ?_⟩
    · rw [hinteger] at hv
      cases hv
    · rw [hinteger] at hk
      cases hk

/-- A sensor signal: if it has parts then they are channels. -/
theorem Reaches.address_eq {s t : Signal} (h : s.Reaches t) (hparts : s.parts = s.channelParts) :
    t.address = s.address ∧ (t.parts = [] ∨ t = s) := by
  induction h with
  | self => exact ⟨rfl, .inr rfl⟩
  | part _ hu ih =>
    rcases ih.2 with hnone | rfl
    · rw [hnone] at hu
      cases hu
    · rw [hparts, mem_channelParts] at hu
      obtain ⟨scale, shape, k, -, -, rfl⟩ := hu
      exact ⟨rfl, .inl rfl⟩

end Signal

/-- **What a processor puts out is notified.** -/
theorem infer_notified {s : Signal} {p : Processor} {fused : List Signal} {i : Inferred}
    (h : infer s p fused = .ok i) : i.output.Notified := by
  by_cases hfuser : p.isFuser = true
  · cases p with
    | fuser c =>
      rw [infer] at h
      split at h
      · cases h
      · cases h
        refine ⟨rfl, fun hv => ?_, fun hk => ?_⟩
        · cases hv
        · cases hk
    | _ => cases hfuser
  · have hout := infer_isOutput (Bool.eq_false_iff.2 hfuser) h
    have haddress {t : Signal} (ht : t.address = i.output.address) : t.isOutput = true := by
      rw [Signal.isOutput, ht, hout.address]
      rfl
    exact ⟨haddress rfl, hout.parts, fun hk u hu =>
      ⟨haddress (hout.lead hk u hu).1, (hout.lead hk u hu).2⟩⟩

/-! ## Cursors -/

/-- The cursor stands on the producer `root`, or on one of the outputs of stages. -/
def Cursor.StandsOn (root : Signal) (outputs : List Signal) (c : Cursor) : Prop :=
  match c.stage with
  | none => root.Reaches c.signal
  | some k => ∃ output, outputs[k]? = some output ∧ output.Reaches c.signal

namespace Cursor.StandsOn

variable {root : Signal} {outputs : List Signal} {c : Cursor}

/-- More outputs do not matter. -/
theorem append (h : c.StandsOn root outputs) (more : List Signal) :
    c.StandsOn root (outputs ++ more) := by
  obtain ⟨signal, _ | k⟩ := c
  · exact h
  · obtain ⟨output, hk, hreaches⟩ := h
    refine ⟨output, ?_, hreaches⟩
    rw [List.getElem?_append_left (List.getElem?_eq_some_iff.1 hk).1]
    exact hk

/-- From a signal to one of its parts. -/
theorem part (h : c.StandsOn root outputs) {s : Signal} (hs : s ∈ c.signal.parts) :
    (⟨s, c.stage⟩ : Cursor).StandsOn root outputs := by
  obtain ⟨signal, _ | k⟩ := c
  · exact .part h hs
  · obtain ⟨output, hk, hreaches⟩ := h
    exact ⟨output, hk, .part hreaches hs⟩

end Cursor.StandsOn

/-- What the stages of a plan put out. -/
def Plan.outputs (p : Plan) : List Signal := p.stages.map PlannedStage.output

theorem Plan.outputs_modifyStage (p : Plan) (i : Nat) {f : PlannedStage → PlannedStage}
    (houtput : ∀ s, (f s).output = s.output) :
    Plan.outputs { p with stages := p.stages.modify i f } = p.outputs := by
  refine List.ext_getElem? fun k => ?_
  simp only [Plan.outputs, List.getElem?_map, List.getElem?_modify]
  cases p.stages[k]? with
  | none => rfl
  | some s => by_cases hk : i = k <;> simp [hk, houtput]

/-- All cursors of a plan stand on the producer or on outputs, those that stages read on outputs of
earlier stages. -/
structure Plan.Grounded (root : Signal) (p : Plan) : Prop where
  outputs : ∀ s ∈ p.outputs, s.Notified
  sources : ∀ (i : Nat) stage, p.stages[i]? = some stage →
    stage.source.StandsOn root (p.outputs.take i)
  reactions : ∀ r ∈ p.reactions, r.source.StandsOn root p.outputs
  streams : ∀ c ∈ p.streams, c.StandsOn root p.outputs
  logs : ∀ c ∈ p.logs, c.StandsOn root p.outputs

/-- So do the cursor `c` and those that branches go back to. -/
structure Draft.Grounded (root : Signal) (c : Cursor) (d : Draft) : Prop where
  plan : d.plan.Grounded root
  branches : ∀ b ∈ d.branches, b.anchor.StandsOn root d.plan.outputs
  cursor : c.StandsOn root d.plan.outputs

namespace Plan.Grounded

variable {root : Signal} {p : Plan} {c : Cursor}

theorem empty (root : Signal) : Plan.empty.Grounded root := by
  refine ⟨?_, ?_, ?_, ?_, ?_⟩ <;> simp [Plan.empty, Plan.outputs]

theorem addStage (h : p.Grounded root) {stage : PlannedStage} (hout : stage.output.Notified)
    (hsource : stage.source.StandsOn root p.outputs) :
    Grounded root { p with stages := p.stages ++ [stage] } := by
  have houtputs : Plan.outputs { p with stages := p.stages ++ [stage] } =
      p.outputs ++ [stage.output] := List.map_append
  have hlength : p.outputs.length = p.stages.length := List.length_map _
  refine ⟨?_, ?_, ?_, ?_, ?_⟩ <;> rw [houtputs]
  · intro s hs
    rcases List.mem_append.1 hs with hs | hs
    · exact h.outputs s hs
    · rwa [List.mem_singleton.1 hs]
  · intro i s hi
    rcases Nat.lt_or_ge i p.stages.length with hlt | hge
    · rw [List.getElem?_append_left hlt] at hi
      rw [List.take_append_of_le_length (by omega)]
      exact h.sources i s hi
    · rw [List.getElem?_append_right hge, List.getElem?_singleton] at hi
      split at hi
      · cases hi
        rw [List.take_append_of_le_length (by omega), List.take_of_length_le (by omega)]
        exact hsource
      · cases hi
  · exact fun r hr => (h.reactions r hr).append _
  · exact fun c hc => (h.streams c hc).append _
  · exact fun c hc => (h.logs c hc).append _

/-- A change of stages that changes neither what they read nor what they put out. -/
theorem modifyStage (h : p.Grounded root) (i : Nat) {f : PlannedStage → PlannedStage}
    (hsource : ∀ s, (f s).source = s.source) (houtput : ∀ s, (f s).output = s.output) :
    Grounded root { p with stages := p.stages.modify i f } := by
  refine ⟨?_, ?_, ?_, ?_, ?_⟩ <;> rw [p.outputs_modifyStage i houtput]
  · exact h.outputs
  · intro k s hk
    cases hold : p.stages[k]? with
    | none =>
      rw [List.getElem?_modify, hold] at hk
      cases hk
    | some s' =>
      rw [List.getElem?_modify, hold] at hk
      have hsame : s.source = s'.source := by
        rw [← Option.some.inj hk]
        show (if i = k then f s' else s').source = s'.source
        split
        · exact hsource s'
        · rfl
      rw [hsame]
      exact h.sources k s' hold
  · exact h.reactions
  · exact h.streams
  · exact h.logs

end Plan.Grounded

namespace Draft.Grounded

variable {root : Signal} {d : Draft} {c : Cursor}

theorem addStage (h : d.Grounded root c) {stage : PlannedStage} (hsource : stage.source = c)
    (hout : stage.output.Notified) :
    (d.addStage stage).Grounded root ⟨stage.output, some d.plan.stages.length⟩ := by
  have houtputs : (d.addStage stage).plan.outputs = d.plan.outputs ++ [stage.output] :=
    List.map_append
  refine ⟨h.plan.addStage hout (hsource ▸ h.cursor), ?_, stage.output, ?_, .self⟩ <;> rw [houtputs]
  · exact fun b hb => (h.branches b hb).append _
  · rw [List.getElem?_append_right (by simp [Plan.outputs])]
    simp [Plan.outputs]

theorem addFeedback (h : d.Grounded root c) (feedback : List Feedback) :
    (d.addFeedback feedback).Grounded root c :=
  { h with plan := { h.plan with } }

/-- A list of the plan that grows by something at the cursor. -/
theorem concat (h : d.Grounded root c) {α : Type} (source : α → Cursor) {xs : List α}
    (hxs : ∀ x ∈ xs, (source x).StandsOn root d.plan.outputs) {x : α} (hx : source x = c) :
    ∀ y ∈ xs ++ [x], (source y).StandsOn root d.plan.outputs :=
  List.forall_mem_append.2 ⟨hxs, List.forall_mem_singleton.2 (hx ▸ h.cursor)⟩

theorem addReaction (h : d.Grounded root c) (commands : List Command) :
    (d.addReaction ⟨c, commands⟩).Grounded root c where
  plan := { h.plan with reactions := h.concat Reaction.source h.plan.reactions rfl }
  branches := h.branches
  cursor := h.cursor

theorem addStream (h : d.Grounded root c) : (d.addStream c).Grounded root c where
  plan := { h.plan with streams := h.concat id h.plan.streams rfl }
  branches := h.branches
  cursor := h.cursor

theorem addLog (h : d.Grounded root c) : (d.addLog c).Grounded root c where
  plan := { h.plan with logs := h.concat id h.plan.logs rfl }
  branches := h.branches
  cursor := h.cursor

theorem openBranch (h : d.Grounded root c) (kind : BranchKind) :
    (d.openBranch ⟨kind, c⟩).Grounded root c where
  plan := h.plan
  branches := fun b hb => by
    rcases List.mem_cons.1 hb with rfl | hb
    · exact h.cursor
    · exact h.branches b hb
  cursor := h.cursor

theorem nameStage (h : d.Grounded root c) (i : Nat) (name : String) :
    (d.nameStage i name).Grounded root c := by
  have hplan := h.plan.modifyStage i (f := fun s => { s with name := some name }) (fun _ => rfl)
    fun _ => rfl
  have houtputs : (d.nameStage i name).plan.outputs = d.plan.outputs :=
    d.plan.outputs_modifyStage i fun _ => rfl
  refine ⟨hplan, ?_, ?_⟩ <;> rw [houtputs]
  · exact h.branches
  · exact h.cursor

end Draft.Grounded

/-- **Every move leaves the cursors where they should stand.** -/
theorem Draft.Grounded.move {root : Signal} {x y : Cursor × Draft} (hmove : Draft.Move x y)
    (h : x.2.Grounded root x.1) : y.2.Grounded root y.1 := by
  cases hmove with
  | @emitted c d p buffers i hemits hi =>
    let stage : PlannedStage := ⟨c, p, i.output, i.state, none, buffers.map Prod.fst⟩
    have hout : stage.output.Notified := infer_notified hi
    exact h.addStage rfl hout
  | fed c d feedback => exact h.addFeedback feedback
  | named hstage hnamed hknown hunnamed => exact h.nameStage _ _
  | reacted c d commands => exact h.addReaction commands
  | streamed c d => exact h.addStream
  | logged d hdata => exact h.addLog
  | opened c d kind => exact h.openBranch kind
  | returned hb => exact ⟨h.plan, h.branches, h.branches _ hb⟩
  | entered hs => exact ⟨h.plan, h.branches, h.cursor.part hs⟩
  | @closed c d b rest hb =>
    have hbranches : ∀ b' ∈ b :: rest, b'.anchor.StandsOn root d.plan.outputs := hb ▸ h.branches
    exact ⟨h.plan, fun b' hb' => hbranches b' (List.mem_cons_of_mem _ hb'),
      hbranches b List.mem_cons_self⟩

/-- **However a route is drafted, its cursors stand where they should.** -/
theorem Drafting.grounded_run {root : Signal} {c : Cursor} {d : Draft} (h : d.Grounded root c)
    (steps : List Step) :
    ∃ next, (Step.run c steps d).2.Grounded root next ∧
      ∀ c', (Step.run c steps d).1 = .ok c' → c' = next :=
  run_keeps (I := fun x => x.2.Grounded root x.1) (fun _ _ hmove => Draft.Grounded.move hmove) h
    steps

end SignalRoute
