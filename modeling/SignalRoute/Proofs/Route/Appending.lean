import SignalRoute.Proofs.Route.Soundness

/-!
# What a step adds to a draft

A step that fails leaves the draft as it was, open branches included, although most steps have
several things to look up and to check and some write to two lists.  One that succeeds adds to the
end of the lists of the plan; only a name goes to where a stage already is.

A name needs a stage to go to, and cursors hold numbers of stages that outlive expressions: branches
that a failed expression left open are there for the next one.  `Draft.Anchored` says that all of
these are numbers of stages of the plan, and every move keeps that.

That nothing is lost and that nothing is half done are one statement here, since the draft of a
failed step is equal to the one before it.  It is about the whole draft, so it covers what a caller
cannot see: names that are taken and branches that are open.
-/

set_option autoImplicit false

namespace SignalRoute

/-! ## Cursors at stages of the plan -/

/-- The stage of a cursor, if it has one, is among the first `n`. -/
def Cursor.Among (c : Cursor) (n : Nat) : Prop := ∀ i, c.stage = some i → i < n

theorem Cursor.Among.mono {c : Cursor} {m n : Nat} (h : c.Among m) (hle : m ≤ n) : c.Among n :=
  fun i hi => Nat.lt_of_lt_of_le (h i hi) hle

/-- An expression does not start at a stage. -/
theorem Cursor.among_root (s : Signal) (n : Nat) : Cursor.Among ⟨s, none⟩ n :=
  fun _ hi => nomatch hi

/-- The cursor and those that branches go back to are at stages of the plan, if at any. -/
structure Draft.Anchored (c : Cursor) (d : Draft) : Prop where
  cursor : c.Among d.plan.stages.length
  branches : ∀ b ∈ d.branches, b.anchor.Among d.plan.stages.length

theorem Draft.length_addStage (d : Draft) (stage : PlannedStage) :
    (d.addStage stage).plan.stages.length = d.plan.stages.length + 1 := List.length_append

theorem Draft.length_nameStage (d : Draft) (i : Nat) (name : String) :
    (d.nameStage i name).plan.stages.length = d.plan.stages.length := List.length_modify ..

theorem Draft.Anchored.move {x y : Cursor × Draft} (hmove : Draft.Move x y)
    (h : x.2.Anchored x.1) : y.2.Anchored y.1 := by
  cases hmove with
  | @emitted c d p buffers i hemits hi =>
    refine ⟨?_, fun b hb => ?_⟩ <;> rw [d.length_addStage]
    · rintro k ⟨⟩
      exact Nat.lt_succ_self _
    · exact (h.branches b hb).mono (Nat.le_succ _)
  | @named c d i name hstage hnamed hknown hunnamed =>
    refine ⟨?_, ?_⟩ <;> rw [d.length_nameStage]
    · exact h.cursor
    · exact h.branches
  | fed => exact ⟨h.cursor, h.branches⟩
  | reacted => exact ⟨h.cursor, h.branches⟩
  | streamed => exact ⟨h.cursor, h.branches⟩
  | logged => exact ⟨h.cursor, h.branches⟩
  | opened c d kind =>
    refine ⟨h.cursor, fun b hb => ?_⟩
    rcases List.mem_cons.1 hb with rfl | hb
    · exact h.cursor
    · exact h.branches b hb
  | returned hb => exact ⟨h.branches _ hb, h.branches⟩
  | entered hs => exact ⟨h.cursor, h.branches⟩
  | @closed c d b rest hb =>
    have hbranches : ∀ b' ∈ b :: rest, b'.anchor.Among d.plan.stages.length := hb ▸ h.branches
    exact ⟨hbranches b List.mem_cons_self, fun b' hb' => hbranches b' (List.mem_cons_of_mem _ hb')⟩

theorem Draft.Anchored.run {c : Cursor} {d : Draft} (h : d.Anchored c) (steps : List Step) :
    ∃ next, (Step.run c steps d).2.Anchored next ∧
      ∀ c', (Step.run c steps d).1 = .ok c' → c' = next :=
  Drafting.run_keeps (I := fun x => x.2.Anchored x.1) (fun _ _ hmove => move hmove) h steps

/-- However drafts are built, an expression that has got somewhere is at a stage of the plan, and so
are the branches to which it can go back. -/
theorem Drafting.anchored_run {device : Device} {known : List KnownProcessor}
    {expressions : List (Signal × List Step)} {root : Signal} {steps : List Step} {c : Cursor}
    {d : Draft}
    (hrun : Step.run ⟨root, none⟩ steps ((Draft.start device known).build expressions) = (.ok c, d)) :
    d.Anchored c := by
  have hstart : (Draft.start device known).Anchored ⟨root, none⟩ :=
    ⟨Cursor.among_root root _, fun b hb => nomatch hb⟩
  obtain ⟨earlier, hearlier⟩ : ∃ earlier, ((Draft.start device known).build expressions).Anchored
      earlier :=
    Draft.build_keeps (I := fun x => x.2.Anchored x.1) (fun _ _ hmove => Draft.Anchored.move hmove)
      (fun e _ _ _ h => ⟨Cursor.among_root e.1 _, h.branches⟩) hstart
  have hbegun : ((Draft.start device known).build expressions).Anchored ⟨root, none⟩ :=
    ⟨Cursor.among_root root _, hearlier.branches⟩
  obtain ⟨next, hnext, hc⟩ := hbegun.run steps
  rw [hrun] at hnext hc
  rw [hc c rfl]
  exact hnext

/-! ## What steps add

The stages are the one list that a step may also change in the middle, so they have a description of
their own (`Step.StagesTo`), step by step; the other lists only ever get longer.
-/

/-- Does a step put a processor behind the cursor? -/
def Step.isStage : Step → Bool
  | .name _ | .react _ | .stream | .log | .multicast | .branch | .split | .index _ | .close => false
  | _ => true

theorem Step.isStage_of_choice {step : Step} {choice : Device → Signal → Except Fault Processor}
    (h : step.choice = some choice) : step.isStage = true := by
  cases step <;> first | rfl | cases h

/-- What a step that succeeds makes of the stages of a plan: one comes behind them, or one of them
that had no name gets it, or they stay as they are. -/
def Step.StagesTo (step : Step) (stages stages' : List PlannedStage) : Prop :=
  match step with
  | .name n =>
    ∃ i stage, stages[i]? = some stage ∧ stage.name = none ∧
      stages' = stages.set i { stage with name := some n }
  | step => if step.isStage then ∃ stage, stages' = stages ++ [stage] else stages' = stages

theorem Step.stagesTo_of_isStage {step : Step} (h : step.isStage = true)
    (stages : List PlannedStage) (stage : PlannedStage) :
    step.StagesTo stages (stages ++ [stage]) := by
  cases step <;> first | exact ⟨stage, rfl⟩ | cases h

/-- What a step that succeeds makes of a draft: the lists of the plan go on where they ended. -/
structure Draft.Extends (step : Step) (d d' : Draft) : Prop where
  stages : step.StagesTo d.plan.stages d'.plan.stages
  reactions : d.plan.reactions <+: d'.plan.reactions
  feedback : d.plan.feedback <+: d'.plan.feedback
  streams : d.plan.streams <+: d'.plan.streams
  logs : d.plan.logs <+: d'.plan.logs

namespace Draft

variable {c : Cursor} {d : Draft}

theorem Extends.addStage {step : Step} (h : step.isStage = true) (stage : PlannedStage) :
    Extends step d (d.addStage stage) where
  stages := Step.stagesTo_of_isStage h _ stage
  reactions := List.prefix_rfl
  feedback := List.prefix_rfl
  streams := List.prefix_rfl
  logs := List.prefix_rfl

/-- Nothing happens to the stages, and the other lists are as they were. -/
theorem Extends.of_plan {step : Step} {d' : Draft}
    (hstages : step.StagesTo d.plan.stages d.plan.stages) (hplan : d'.plan = d.plan) :
    Extends step d d' := by
  constructor <;> rw [hplan]
  exact hstages

/-- The name goes to the stage at the cursor, and there is one. -/
theorem Extends.nameStage {i : Nat} {name : String} (hi : i < d.plan.stages.length)
    (hunnamed : (d.plan.stages[i]?).bind PlannedStage.name = none) :
    Extends (.name name) d (d.nameStage i name) where
  stages := by
    have hget : d.plan.stages[i]? = some d.plan.stages[i] := List.getElem?_eq_getElem hi
    refine ⟨i, d.plan.stages[i], hget, ?_, List.modify_eq_set_get _ hi⟩
    rwa [hget] at hunnamed
  reactions := List.prefix_rfl
  feedback := List.prefix_rfl
  streams := List.prefix_rfl
  logs := List.prefix_rfl

/-- What a step leads to goes on where the draft ended. -/
theorem Outcome.extends {step : Step} {y : Cursor × Draft} (h : d.Outcome c step y)
    (hanchored : d.Anchored c) : Extends step d y.2 := by
  cases h with
  | staged hchoice hp hi => exact .addStage (Step.isStage_of_choice hchoice) _
  | buffered hp hi => exact .addStage rfl _
  | fused hdevice hdata hbuffers hwidth hi => exact .addStage rfl _
  | compared hproducers hp hi =>
    exact { Extends.addStage rfl _ with feedback := List.prefix_append _ _ }
  | computed hproducer hp hi =>
    exact { Extends.addStage rfl _ with feedback := List.prefix_append _ _ }
  | named hstage hnamed hknown hunnamed =>
    exact .nameStage (hanchored.cursor _ hstage) hunnamed
  | reacted hcommands =>
    exact ⟨rfl, List.prefix_append _ _, List.prefix_rfl, List.prefix_rfl, List.prefix_rfl⟩
  | streamed =>
    exact ⟨rfl, List.prefix_rfl, List.prefix_rfl, List.prefix_append _ _, List.prefix_rfl⟩
  | logged hdata =>
    exact ⟨rfl, List.prefix_rfl, List.prefix_rfl, List.prefix_rfl, List.prefix_append _ _⟩
  | opened => exact .of_plan rfl rfl
  | split hparts => exact .of_plan rfl rfl
  | returned hb => exact .of_plan rfl rfl
  | entered hb hs => exact .of_plan rfl rfl
  | closed hb => exact .of_plan rfl rfl

end Draft

/-- **Steps are all or nothing.**  Whatever has been built before over one draft, by whatever
expressions, and wherever an expression has got to: a next step that fails leaves the draft as it
was, and one that succeeds keeps what is in the lists of the plan and adds behind it, but for a
name, which goes to one stage that had none. -/
theorem Drafting.apply_all_or_nothing {device : Device} {known : List KnownProcessor}
    {expressions : List (Signal × List Step)} {root : Signal} {steps : List Step} {c : Cursor}
    {d : Draft}
    (hrun : Step.run ⟨root, none⟩ steps ((Draft.start device known).build expressions) = (.ok c, d))
    (step : Step) :
    match step.apply c d with
    | (.ok _, d') => d.Extends step d'
    | (.error _, d') => d' = d := by
  have htries : Tries c d step := settles_apply step
  have hstep := htries d rfl
  rcases hnext : step.apply c d with ⟨fault | next, d'⟩ <;> rw [hnext] at hstep
  · exact hstep
  · exact hstep.extends (anchored_run hrun)

/-- A delayed acceleration whose expression fails inside of a multicast, which is left open. -/
def Drafting.interrupted : List (Signal × List Step) :=
  [(Catalog.triple Module.accelerometer 0x04 16384, [.delay 1, .multicast, .index 0])]

/-- The next expression can go back there and name the stage that was left, and no part of it. -/
theorem Drafting.apply_all_or_nothing_interrupted :
    ∃ c d named fault,
      Step.run ⟨Catalog.triple Module.gyro 0x05 16.4, none⟩ [.branch]
        ((Draft.start .standard []).build interrupted) = (.ok c, d) ∧
      Step.apply c (.name "last") d = (.ok c, named) ∧ d.Extends (.name "last") named ∧
      Step.apply c (.index 3) d = (.error fault, d) := by
  obtain ⟨c, d, hrun⟩ : ∃ c d, Step.run ⟨Catalog.triple Module.gyro 0x05 16.4, none⟩ [.branch]
      ((Draft.start .standard []).build interrupted) = (.ok c, d) := ⟨_, _, rfl⟩
  have hnamed := apply_all_or_nothing hrun (.name "last")
  have hindex := apply_all_or_nothing hrun (.index 3)
  cases hrun
  exact ⟨_, _, _, _, rfl, rfl, hnamed, congrArg _ hindex⟩

end SignalRoute
