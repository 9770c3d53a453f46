import SignalRoute.Proofs.Route.Drafting

/-!
# Linear expressions

A linear expression puts one stage behind the other, goes on with one channel of a vector where it
likes, and ends in a log.  What it leaves in a draft is a `Chain`: each stage reads the output of
the one before, or a channel of it, and the first one reads the producer.

`chain_of_run` is the passage from the one to the other.  On a chain that splits nothing but vectors
and whose stages read up to eight bytes, every cursor stands on a tame signal (`Chain.tame`).

The second half of a linear expression is what makes it linear: nothing is named, fed, fused or
asked for but the one log.  So the draft holds one list of stages, and all that the chain leaves out
of it is the branches that choosing a channel opens.
-/

set_option autoImplicit false

namespace SignalRoute

/-- A piece of a linear expression: a stage, or the choice of a channel. -/
inductive Hop where
  | stage (step : Step) (h : step.choice.isSome = true)
  | channel (i : Nat)

namespace Hop

def steps : Hop → List Step
  | stage step _ => [step]
  | channel i => [.split, .index i]

/-- The linear expression of some pieces, with a log at its end. -/
def logged (hops : List Hop) : List Step := hops.flatMap steps ++ [.log]

end Hop

/-- From the signal `root` on, `stages` lie one behind the other, the branches `branches` were
opened in between, and the last output or a channel of it is under the cursor. -/
inductive Chain (d : Device) (root : Signal) : List PlannedStage → List Branch → Cursor → Prop
  | root : Chain d root [] [] ⟨root, none⟩
  | stage {stages : List PlannedStage} {branches : List Branch} {c : Cursor}
      (h : Chain d root stages branches c) {step : Step}
      {choice : Device → Signal → Except Fault Processor} (hchoice : step.choice = some choice)
      {p : Processor} (hp : choice d c.signal = .ok p) {i : Inferred}
      (hi : infer c.signal p [] = .ok i) :
      Chain d root (stages ++ [⟨c, p, i.output, i.state, none, []⟩]) branches
        ⟨i.output, some stages.length⟩
  | channel {stages : List PlannedStage} {branches : List Branch} {c : Cursor}
      (h : Chain d root stages branches c) {part : Signal} (hpart : part ∈ c.signal.parts) :
      Chain d root stages (⟨.split, c⟩ :: branches) ⟨part, c.stage⟩

/-! ## From a run of steps to a chain -/

namespace Drafting

variable {c next : Cursor} {d d' : Draft}

theorem split_ok (h : split c d = (.ok next, d')) : next = c ∧ d' = d.openBranch ⟨.split, c⟩ := by
  rw [split] at h
  split at h
  · cases h
  · cases h
    exact ⟨rfl, rfl⟩

theorem part_ok {i : Nat} {anchor : Cursor} (hopen : d.branches.head? = some ⟨.split, anchor⟩)
    (h : part i d = (.ok next, d')) :
    d' = d ∧ ∃ s ∈ anchor.signal.parts, next = ⟨s, anchor.stage⟩ := by
  obtain ⟨device, known, names, branches, plan⟩ := d
  cases branches with
  | nil => cases hopen
  | cons branch rest =>
    cases hopen
    cases hs : anchor.signal.parts[i]? with
    | none =>
      simp only [part, get_bind_apply, hs] at h
      cases h
    | some s =>
      simp only [part, get_bind_apply, hs] at h
      cases h
      exact ⟨rfl, s, List.mem_of_getElem? hs, rfl⟩

theorem log_ok (h : log c d = (.ok next, d')) : next = c ∧ d' = d.addLog c := by
  rw [log] at h
  split at h
  · cases h
  · cases h
    exact ⟨rfl, rfl⟩

end Drafting

/-- The draft holds a chain up to the cursor `c`, and nothing else. -/
structure Draft.Follows (d : Draft) (root : Signal) (c : Cursor) : Prop where
  chain : Chain d.device root d.plan.stages d.branches c
  reactions : d.plan.reactions = []
  feedback : d.plan.feedback = []
  streams : d.plan.streams = []
  logs : d.plan.logs = []

/-- **A linear expression leaves a chain and its log.** -/
theorem chain_of_run {root : Signal} {hops : List Hop} {c c' : Cursor} {d d' : Draft}
    (h : d.Follows root c) (hrun : Step.run c (Hop.logged hops) d = (.ok c', d')) :
    Chain d.device root d'.plan.stages d'.branches c' ∧
      d'.plan = { Plan.empty with stages := d'.plan.stages, logs := [c'] } := by
  induction hops generalizing c d with
  | nil =>
    obtain ⟨next, d₁, hlog, hrun⟩ := bind_apply_eq_ok.1 hrun
    obtain ⟨rfl, rfl⟩ := Drafting.log_ok hlog
    cases hrun
    refine ⟨h.chain, ?_⟩
    rw [Draft.addLog, h.logs]
    simp only [Plan.empty, h.reactions, h.feedback, h.streams, List.nil_append]
  | cons hop rest ih =>
    cases hop with
    | stage step hstep =>
      obtain ⟨choice, hchoice⟩ := Option.isSome_iff_exists.1 hstep
      obtain ⟨next, d₁, happly, hrun⟩ := bind_apply_eq_ok.1 hrun
      rw [step.apply_of_choice hchoice] at happly
      obtain ⟨p, i, hp, hi, rfl, rfl⟩ := Drafting.stage_ok happly
      have hnext : (d.addStage ⟨c, p, i.output, i.state, none, []⟩).Follows root
          ⟨i.output, some d.plan.stages.length⟩ :=
        ⟨h.chain.stage hchoice hp hi, h.reactions, h.feedback, h.streams, h.logs⟩
      have hrest := ih hnext hrun
      exact hrest
    | channel i =>
      obtain ⟨same, d₁, hsplit, hrun⟩ := bind_apply_eq_ok.1 hrun
      obtain ⟨-, rfl⟩ := Drafting.split_ok hsplit
      obtain ⟨next, d₂, hindex, hrun⟩ := bind_apply_eq_ok.1 hrun
      obtain ⟨rfl, s, hs, rfl⟩ := Drafting.part_ok rfl hindex
      have hnext : (d.openBranch ⟨.split, c⟩).Follows root ⟨s, c.stage⟩ :=
        ⟨h.chain.channel hs, h.reactions, h.feedback, h.streams, h.logs⟩
      have hrest := ih hnext hrun
      exact hrest

/-! ## Chains of tame signals -/

/-- What was split are vectors, and no stage reads more than eight bytes. -/
structure Plain (stages : List PlannedStage) (branches : List Branch) : Prop where
  splits : ∀ branch ∈ branches, branch.anchor.signal.kind.isVector = true
  reads : ∀ stage ∈ stages, stage.source.signal.shape.unitLength.toNat ≤ 8

namespace Plain

variable {stages : List PlannedStage} {stage : PlannedStage} {branches : List Branch}
  {branch : Branch}

theorem of_concat (h : Plain (stages ++ [stage]) branches) : Plain stages branches :=
  { h with reads := fun s hs => h.reads s (List.mem_append_left _ hs) }

theorem read (h : Plain (stages ++ [stage]) branches) :
    stage.source.signal.shape.unitLength.toNat ≤ 8 :=
  h.reads stage (List.mem_append_right _ (List.mem_singleton_self _))

theorem of_cons (h : Plain stages (branch :: branches)) : Plain stages branches :=
  { h with splits := fun b hb => h.splits b (List.mem_cons_of_mem _ hb) }

theorem split (h : Plain stages (branch :: branches)) :
    branch.anchor.signal.kind.isVector = true :=
  h.splits branch List.mem_cons_self

end Plain

theorem Chain.tame {d : Device} {root : Signal} {stages : List PlannedStage}
    {branches : List Branch} {c : Cursor} (h : Chain d root stages branches c)
    (hroot : root.Tame) (hplain : Plain stages branches) : c.signal.Tame := by
  induction h with
  | root => exact hroot
  | @stage stages branches c h step choice hchoice p hp i hi ih =>
    have hc := ih hplain.of_concat
    have hsuits := Step.suits hchoice hp hc (by rw [← hc.shape.toNat_unitLength]; exact hplain.read)
    have houtput := infer_isOutput hsuits.keeps.isFuser hi
    refine ⟨houtput.shape ▸ hsuits.shape, fun hv => ⟨?_, houtput.parts hv⟩⟩
    rw [houtput.kind] at hv
    rw [houtput.shape]
    exact hsuits.vector hv
  | channel h hpart ih => exact (ih hplain.of_cons).part hplain.split hpart

end SignalRoute
