import Mathlib.Logic.Relation
import SignalRoute.Proofs.Route.Choice

/-!
# What steps do to a draft

Whatever a route expression does to the cursor and the draft is made of a few moves: a processor is
put behind the cursor, operands are fed, a stage is named, something is asked for at the cursor, or
the cursor goes to where a branch starts.  `Draft.Move` lists them, each with all that was checked
before it, and `Draft.Emits` says which processors can be put behind a signal.

Which operands are fed is more than a move can say.  `Draft.Act` takes moves together where operands
of a new stage are fed, and says with what.  What a step does besides is for `Draft.Outcome` to say:
it lists what each step leads to if it succeeds.  Only `Drafting.settles_apply` looks at the steps.

`Drafting.moves_run`: any list of steps makes moves, and one that fails has made those of the steps
before.  So what every move keeps is kept by every expression (`Drafting.run_keeps`).

The three relations are coarser and finer views of the same thing, and each is the right one for
some theorems.  An invariant of drafts is proved of moves, since there are ten of them and their
checks are at hand; where operands are fed it is proved of acts; and only where it matters which
step was asked for are outcomes needed.  All three are proved of the program once, from one
description of what a step leads to.
-/

set_option autoImplicit false

namespace SignalRoute

/-! ## Moves -/

/-- The processors that steps put behind the signal `s`, with the buffers that they read besides. -/
inductive Draft.Emits (d : Draft) (s : Signal) : Processor → List (NamedRef × Signal) → Prop
  | chosen {step : Step} {choice : Device → Signal → Except Fault Processor} {p : Processor}
      (hchoice : step.choice = some choice) (hp : choice d.device s = .ok p) : Emits d s p []
  | compared {op : ComparisonOp} {references : List Int64} {p : Processor}
      (hp : s.comparing d.device op .absolute references = .ok p) : Emits d s p []
  | computed {op : MathOp} {rhs : Int32} {p : Processor}
      (hp : s.computing d.device op rhs = .ok p) : Emits d s p []
  | buffered {p : Processor} (hp : s.buffering = .ok p) : Emits d s p []
  | fused {names : List String} {buffers : List (NamedRef × Signal)}
      (hdevice : d.device.fuser = true) (hdata : s.requireData "fuse" = .ok ())
      (hbuffers : names.mapM d.lookupBuffer = .ok buffers)
      (hwidth : Drafting.fusedWidth s (buffers.map Prod.snd) ≤ maxPayload) :
      Emits d s (.fuser ⟨buffers.map fun b => Drafting.fusedId b.1⟩) buffers

/-- One move from a cursor and a draft to the next ones. -/
inductive Draft.Move : Cursor × Draft → Cursor × Draft → Prop
  | emitted {c : Cursor} {d : Draft} {p : Processor} {buffers : List (NamedRef × Signal)}
      {i : Inferred} (hemits : d.Emits c.signal p buffers)
      (hi : infer c.signal p (buffers.map Prod.snd) = .ok i) :
      Move (c, d) (⟨i.output, some d.plan.stages.length⟩,
        d.addStage ⟨c, p, i.output, i.state, none, buffers.map Prod.fst⟩)
  | fed (c : Cursor) (d : Draft) (feedback : List Feedback) :
      Move (c, d) (c, d.addFeedback feedback)
  | named {c : Cursor} {d : Draft} {i : Nat} {name : String} (hstage : c.stage = some i)
      (hnamed : d.named? name = none) (hknown : d.known? name = none)
      (hunnamed : (d.plan.stages[i]?).bind PlannedStage.name = none) :
      Move (c, d) (c, d.nameStage i name)
  | reacted (c : Cursor) (d : Draft) (commands : List Command) :
      Move (c, d) (c, d.addReaction ⟨c, commands⟩)
  | streamed (c : Cursor) (d : Draft) : Move (c, d) (c, d.addStream c)
  | logged {c : Cursor} (d : Draft) (hdata : c.signal.shape.isEmpty = false) :
      Move (c, d) (c, d.addLog c)
  | opened (c : Cursor) (d : Draft) (kind : BranchKind) : Move (c, d) (c, d.openBranch ⟨kind, c⟩)
  /-- Back to where a branch starts. -/
  | returned {c : Cursor} {d : Draft} {b : Branch} (hb : b ∈ d.branches) : Move (c, d) (b.anchor, d)
  | entered {c : Cursor} {d : Draft} {s : Signal} (hs : s ∈ c.signal.parts) :
      Move (c, d) (⟨s, c.stage⟩, d)
  | closed {c : Cursor} {d : Draft} {b : Branch} {rest : List Branch}
      (hb : d.branches = b :: rest) : Move (c, d) (b.anchor, { d with branches := rest })

/-- Some moves, one after the other. -/
def Draft.Moves : Cursor × Draft → Cursor × Draft → Prop := Relation.ReflTransGen Draft.Move

/-- What an operation does: a move that feeds nothing, or a stage with operands that are fed from
`producers` and are 0 until then. -/
inductive Draft.Act : Cursor × Draft → Cursor × Draft → Prop
  | moved {x y : Cursor × Draft} (hmove : Move x y)
      (hfeedback : y.2.plan.feedback = x.2.plan.feedback) : Act x y
  | compared {c : Cursor} {d : Draft} {op : ComparisonOp} {names : List String}
      {producers : List (NamedRef × Signal)} {p : Processor} {i : Inferred}
      (hproducers : names.mapM d.lookup = .ok producers)
      (hp : c.signal.comparing d.device op .absolute (names.map fun _ => 0) = .ok p)
      (hi : infer c.signal p [] = .ok i) :
      Act (c, d) (⟨i.output, some d.plan.stages.length⟩,
        (d.addStage ⟨c, p, i.output, i.state, none, []⟩).addFeedback
          (Drafting.feeds d.plan.stages.length (Drafting.referenceSlots p).1
            (Drafting.referenceSlots p).2 producers))
  | computed {c : Cursor} {d : Draft} {op : MathOp} {name : String} {producer : NamedRef × Signal}
      {p : Processor} {i : Inferred} (hproducer : d.lookup name = .ok producer)
      (hp : c.signal.computing d.device op 0 = .ok p) (hi : infer c.signal p [] = .ok i) :
      Act (c, d) (⟨i.output, some d.plan.stages.length⟩,
        (d.addStage ⟨c, p, i.output, i.state, none, []⟩).addFeedback
          (Drafting.feeds d.plan.stages.length 4 0 [producer]))

theorem Draft.Act.moves {x y : Cursor × Draft} (h : Draft.Act x y) : Draft.Moves x y := by
  cases h with
  | moved hmove => exact .single hmove
  | compared hproducers hp hi => exact .tail (.single (.emitted (.compared hp) hi)) (.fed _ _ _)
  | computed hproducer hp hi => exact .tail (.single (.emitted (.computed hp) hi)) (.fed _ _ _)

/-- What a step leads to from a cursor and a draft, with all that was checked before. -/
inductive Draft.Outcome (c : Cursor) (d : Draft) : Step → Cursor × Draft → Prop
  | staged {step : Step} {choice : Device → Signal → Except Fault Processor} {p : Processor}
      {i : Inferred} (hchoice : step.choice = some choice) (hp : choice d.device c.signal = .ok p)
      (hi : infer c.signal p [] = .ok i) :
      Outcome c d step (⟨i.output, some d.plan.stages.length⟩,
        d.addStage ⟨c, p, i.output, i.state, none, []⟩)
  | buffered {p : Processor} {i : Inferred} (hp : c.signal.buffering = .ok p)
      (hi : infer c.signal p [] = .ok i) :
      Outcome c d .buffer (⟨i.output, some d.plan.stages.length⟩,
        d.addStage ⟨c, p, i.output, i.state, none, []⟩)
  | fused {names : List String} {buffers : List (NamedRef × Signal)} {i : Inferred}
      (hdevice : d.device.fuser = true) (hdata : c.signal.requireData "fuse" = .ok ())
      (hbuffers : names.mapM d.lookupBuffer = .ok buffers)
      (hwidth : Drafting.fusedWidth c.signal (buffers.map Prod.snd) ≤ maxPayload)
      (hi : infer c.signal (.fuser ⟨buffers.map fun b => Drafting.fusedId b.1⟩)
        (buffers.map Prod.snd) = .ok i) :
      Outcome c d (.fuse names) (⟨i.output, some d.plan.stages.length⟩,
        d.addStage ⟨c, .fuser ⟨buffers.map fun b => Drafting.fusedId b.1⟩, i.output, i.state, none,
          buffers.map Prod.fst⟩)
  | compared {op : ComparisonOp} {names : List String} {producers : List (NamedRef × Signal)}
      {p : Processor} {i : Inferred} (hproducers : names.mapM d.lookup = .ok producers)
      (hp : c.signal.comparing d.device op .absolute (names.map fun _ => 0) = .ok p)
      (hi : infer c.signal p [] = .ok i) :
      Outcome c d (.filterNamed op names) (⟨i.output, some d.plan.stages.length⟩,
        (d.addStage ⟨c, p, i.output, i.state, none, []⟩).addFeedback
          (Drafting.feeds d.plan.stages.length (Drafting.referenceSlots p).1
            (Drafting.referenceSlots p).2 producers))
  | computed {op : MathOp} {name : String} {producer : NamedRef × Signal} {p : Processor}
      {i : Inferred} (hproducer : d.lookup name = .ok producer)
      (hp : c.signal.computing d.device op 0 = .ok p) (hi : infer c.signal p [] = .ok i) :
      Outcome c d (.mapNamed op name) (⟨i.output, some d.plan.stages.length⟩,
        (d.addStage ⟨c, p, i.output, i.state, none, []⟩).addFeedback
          (Drafting.feeds d.plan.stages.length 4 0 [producer]))
  | named {i : Nat} {name : String} (hstage : c.stage = some i) (hnamed : d.named? name = none)
      (hknown : d.known? name = none)
      (hunnamed : (d.plan.stages[i]?).bind PlannedStage.name = none) :
      Outcome c d (.name name) (c, d.nameStage i name)
  | reacted {commands : List Command} (hcommands : commands.isEmpty = false) :
      Outcome c d (.react commands) (c, d.addReaction ⟨c, commands⟩)
  | streamed : Outcome c d .stream (c, d.addStream c)
  | logged (hdata : c.signal.shape.isEmpty = false) : Outcome c d .log (c, d.addLog c)
  | opened : Outcome c d .multicast (c, d.openBranch ⟨.multicast, c⟩)
  | split (hparts : c.signal.parts.isEmpty = false) :
      Outcome c d .split (c, d.openBranch ⟨.split, c⟩)
  | returned {anchor : Cursor} {rest : List Branch} (hb : d.branches = ⟨.multicast, anchor⟩ :: rest) :
      Outcome c d .branch (anchor, d)
  | entered {anchor : Cursor} {rest : List Branch} {k : Nat} {s : Signal}
      (hb : d.branches = ⟨.split, anchor⟩ :: rest) (hs : anchor.signal.parts[k]? = some s) :
      Outcome c d (.index k) (⟨s, anchor.stage⟩, d)
  | closed {b : Branch} {rest : List Branch} (hb : d.branches = b :: rest) :
      Outcome c d .close (b.anchor, { d with branches := rest })

/-- What steps lead to they reach by acting. -/
theorem Draft.Outcome.acts {c : Cursor} {d : Draft} {step : Step} {y : Cursor × Draft}
    (h : d.Outcome c step y) : Relation.ReflTransGen Draft.Act (c, d) y := by
  cases h with
  | staged hchoice hp hi => exact .single (.moved (.emitted (.chosen hchoice hp) hi) rfl)
  | buffered hp hi => exact .single (.moved (.emitted (.buffered hp) hi) rfl)
  | fused hdevice hdata hbuffers hwidth hi =>
    exact .single (.moved (.emitted (.fused hdevice hdata hbuffers hwidth) hi) rfl)
  | compared hproducers hp hi => exact .single (.compared hproducers hp hi)
  | computed hproducer hp hi => exact .single (.computed hproducer hp hi)
  | named hstage hnamed hknown hunnamed =>
    exact .single (.moved (.named hstage hnamed hknown hunnamed) rfl)
  | reacted => exact .single (.moved (.reacted c d _) rfl)
  | streamed => exact .single (.moved (.streamed c d) rfl)
  | logged hdata => exact .single (.moved (.logged d hdata) rfl)
  | opened => exact .single (.moved (.opened c d .multicast) rfl)
  | split => exact .single (.moved (.opened c d .split) rfl)
  | returned hb => exact .single (.moved (.returned (hb ▸ List.mem_cons_self)) rfl)
  | entered hb hs =>
    exact .tail (.single (.moved (.returned (hb ▸ List.mem_cons_self)) rfl))
      (.moved (.entered (List.mem_of_getElem? hs)) rfl)
  | closed hb => exact .single (.moved (.closed hb) rfl)

/-- What every move keeps is kept by all of them. -/
theorem Draft.Moves.keeps {I : Cursor × Draft → Prop} {x y : Cursor × Draft}
    (hmoves : Draft.Moves x y) (hmove : ∀ x y, Draft.Move x y → I x → I y) (h : I x) : I y := by
  induction hmoves with
  | refl => exact h
  | tail _ hstep ih => exact hmove _ _ hstep ih

/-- A stage of a draft in which one was named was there before, but for its name. -/
theorem Draft.of_mem_nameStage {d : Draft} {i : Nat} {name : String} {stage : PlannedStage}
    (h : stage ∈ (d.nameStage i name).plan.stages) :
    ∃ old ∈ d.plan.stages, stage = old ∨ stage = { old with name := some name } := by
  obtain ⟨k, hk⟩ := List.mem_iff_getElem?.1 h
  have hmodify : (d.plan.stages.modify i fun s => { s with name := some name })[k]? = some stage :=
    hk
  rw [List.getElem?_modify, Option.map_eq_map, Option.map_eq_some_iff] at hmodify
  obtain ⟨old, hold, rfl⟩ := hmodify
  refine ⟨old, List.mem_of_getElem? hold, ?_⟩
  split
  · exact .inr rfl
  · exact .inl rfl

/-- What a processor reads besides are buffers that were found by their names. -/
theorem Draft.Emits.lookupBuffer {d : Draft} {s : Signal} {p : Processor}
    {buffers : List (NamedRef × Signal)} (h : d.Emits s p buffers) {b : NamedRef × Signal}
    (hb : b ∈ buffers) : ∃ name, d.lookupBuffer name = .ok b := by
  cases h with
  | fused hdevice hdata hbuffers hwidth =>
    obtain ⟨name, -, hname⟩ := exists_of_mem_mapM hbuffers hb
    exact ⟨name, hname⟩
  | _ => cases hb

/-! ## Operations

Each operation either settles or leaves the draft alone (`Drafting.Settles`).  The rules follow the
way in which operations are written: ask, check, refuse, and change at the end.
-/

namespace Drafting

variable {c next : Cursor} {d d' : Draft}

theorem check_apply {α : Type} (outcome : Except Fault α) (d : Draft) :
    check outcome d = (outcome, d) := by
  cases outcome <;> rfl

theorem push_ok {p : Processor} {buffers : List (NamedRef × Signal)}
    (h : push c p buffers d = (.ok next, d')) :
    ∃ i, infer c.signal p (buffers.map Prod.snd) = .ok i ∧
      next = ⟨i.output, some d.plan.stages.length⟩ ∧
      d' = d.addStage ⟨c, p, i.output, i.state, none, buffers.map Prod.fst⟩ := by
  obtain ⟨i, d₁, hcheck, h⟩ := bind_apply_eq_ok.1 h
  rw [check_apply] at hcheck
  obtain ⟨hi, rfl⟩ := Prod.mk.inj hcheck
  obtain ⟨hnext, hd'⟩ := Prod.mk.inj h
  exact ⟨i, hi, (Except.ok.inj hnext).symm, hd'.symm⟩

theorem push_error {p : Processor} {buffers : List (NamedRef × Signal)} {fault : Fault}
    (h : push c p buffers d = (.error fault, d')) : d' = d := by
  rw [push, bind_apply, check_apply] at h
  cases hi : infer c.signal p (buffers.map Prod.snd) with
  | error fault' =>
    rw [hi] at h
    exact (Prod.mk.inj h).2.symm
  | ok i =>
    rw [hi] at h
    cases h

theorem stage_ok {choice : Device → Signal → Except Fault Processor}
    (h : stage c choice d = (.ok next, d')) :
    ∃ p i, choice d.device c.signal = .ok p ∧ infer c.signal p [] = .ok i ∧
      next = ⟨i.output, some d.plan.stages.length⟩ ∧
      d' = d.addStage ⟨c, p, i.output, i.state, none, []⟩ := by
  obtain ⟨device, d₁, hask, h⟩ := bind_apply_eq_ok.1 h
  cases hask
  obtain ⟨p, d₂, hcheck, h⟩ := bind_apply_eq_ok.1 h
  rw [check_apply] at hcheck
  obtain ⟨hp, rfl⟩ := Prod.mk.inj hcheck
  obtain ⟨i, hi, hnext, hd'⟩ := push_ok h
  exact ⟨p, i, hp, hi, hnext, hd'⟩

/-- From the draft `d`, an operation leads to `Q`, or it fails and changes nothing. -/
def Settles {α : Type} (d : Draft) (op : Drafting α) (Q : α → Draft → Prop) : Prop :=
  Leads (· = d) op Q fun _ d' => d' = d

section

variable {Q : Cursor → Draft → Prop}

theorem settles_refuse (reason : String) : Settles d (refuse reason) Q := fun _ hs => hs

theorem settles_check {α : Type} {outcome : Except Fault α} {rest : α → Drafting Cursor}
    (h : ∀ a, outcome = .ok a → Settles d (rest a) Q) : Settles d (check outcome >>= rest) Q := by
  rintro s rfl
  rw [bind_apply, check_apply]
  cases houtcome : outcome with
  | error fault => rfl
  | ok a => exact h a houtcome s rfl

/-- To refuse on a condition and to go on otherwise. -/
theorem settles_unless {p : Prop} [Decidable p] {reason : String} {rest : Unit → Drafting Cursor}
    (h : ¬p → Settles d (rest ()) Q) :
    Settles d (if p then refuse reason >>= rest else rest ()) Q := by
  split
  · rintro s rfl
    rfl
  · exact h ‹_›

theorem settles_get {rest : Draft → Drafting Cursor} (h : Settles d (rest d) Q) :
    Settles d (get >>= rest) Q := by
  rintro s rfl
  rw [get_bind_apply]
  exact h s rfl

theorem settles_modify {f : Draft → Draft} (h : Q c (f d)) :
    Settles d (modify f >>= fun _ => pure c) Q := by
  rintro s rfl
  rw [bind_apply_ok (modify_apply f s)]
  exact h

theorem settles_push {p : Processor} {buffers : List (NamedRef × Signal)}
    (h : ∀ i, infer c.signal p (buffers.map Prod.snd) = .ok i →
      Q ⟨i.output, some d.plan.stages.length⟩
        (d.addStage ⟨c, p, i.output, i.state, none, buffers.map Prod.fst⟩)) :
    Settles d (push c p buffers) Q := by
  rintro s rfl
  rcases hpush : push c p buffers s with ⟨fault | next, d'⟩
  · exact push_error hpush
  · obtain ⟨i, hi, rfl, rfl⟩ := push_ok hpush
    exact h i hi

/-- A processor whose operands are fed afterwards. -/
theorem settles_fed {p : Processor} {feedback : List Feedback}
    (h : ∀ i, infer c.signal p [] = .ok i →
      Q ⟨i.output, some d.plan.stages.length⟩
        ((d.addStage ⟨c, p, i.output, i.state, none, []⟩).addFeedback feedback)) :
    Settles d (push c p [] >>= fun next =>
      modify (fun d' => d'.addFeedback feedback) >>= fun _ => pure next) Q := by
  rintro s rfl
  rw [bind_apply]
  rcases hpush : push c p [] s with ⟨fault | next, d'⟩
  · exact push_error hpush
  · obtain ⟨i, hi, rfl, rfl⟩ := push_ok hpush
    exact h i hi

theorem settles_stage {choice : Device → Signal → Except Fault Processor}
    (h : ∀ p i, choice d.device c.signal = .ok p → infer c.signal p [] = .ok i →
      Q ⟨i.output, some d.plan.stages.length⟩
        (d.addStage ⟨c, p, i.output, i.state, none, []⟩)) :
    Settles d (stage c choice) Q :=
  settles_get (settles_check fun p hp => settles_push fun i hi => h p i hp hi)

end

/-! ## Steps -/

/-- The step leads from `c` and `d` to one of its outcomes, or it fails and changes nothing. -/
def Tries (c : Cursor) (d : Draft) (step : Step) : Prop :=
  Settles d (step.apply c) fun next d' => d.Outcome c step (next, d')

theorem tries_filterNamed (op : ComparisonOp) (names : List String) :
    Tries c d (.filterNamed op names) := by
  show Settles d (filterNamed c op names) _
  unfold filterNamed
  refine settles_unless fun _ => settles_get ?_
  refine settles_check fun producers hproducers => settles_check fun p hp => ?_
  exact settles_fed fun i hi => .compared hproducers hp hi

theorem tries_mapNamed (op : MathOp) (name : String) : Tries c d (.mapNamed op name) := by
  show Settles d (mapNamed c op name) _
  unfold mapNamed
  refine settles_get (settles_check fun producer hproducer => settles_check fun p hp => ?_)
  have hoffset : p.operandOffset? = some 3 := by
    obtain ⟨c', rfl⟩ := Signal.computing_eq_math hp
    rfl
  rw [hoffset]
  exact settles_fed fun i hi => .computed hproducer hp hi

theorem tries_fuse (names : List String) : Tries c d (.fuse names) := by
  show Settles d (fuse c names) _
  unfold fuse
  refine settles_get (settles_unless fun hdevice => settles_check fun _ hdata => ?_)
  refine settles_unless fun _ => settles_check fun buffers hbuffers =>
    settles_unless fun hwidth => settles_push fun i hi => ?_
  exact .fused (by simpa using hdevice) hdata hbuffers (Nat.le_of_not_lt hwidth) hi

theorem tries_name (n : String) : Tries c d (.name n) := by
  show Settles d (name c n) _
  unfold name
  split
  · exact settles_refuse _
  · rename_i i hi
    refine settles_get (settles_unless fun hfree => ?_)
    rw [Bool.or_eq_true, not_or, Bool.not_eq_true, Bool.not_eq_true, Option.isSome_eq_false_iff,
      Option.isSome_eq_false_iff, Option.isNone_iff_eq_none, Option.isNone_iff_eq_none] at hfree
    dsimp only
    split
    · exact settles_refuse _
    · rename_i hunnamed
      exact settles_modify (.named hi hfree.1 hfree.2 hunnamed)

theorem tries_react (commands : List Command) : Tries c d (.react commands) := by
  show Settles d (react c commands) _
  unfold react
  exact settles_unless fun hcommands => settles_modify (.reacted (Bool.eq_false_iff.2 hcommands))

theorem tries_log : Tries c d .log := by
  show Settles d (log c) _
  unfold log
  exact settles_unless fun hdata => settles_modify (.logged (Bool.eq_false_iff.2 hdata))

theorem tries_split : Tries c d .split := by
  show Settles d (split c) _
  unfold split
  exact settles_unless fun hparts => settles_modify (.split (Bool.eq_false_iff.2 hparts))

theorem tries_branch : Tries c d .branch := by
  rintro ⟨device, known, names, _ | ⟨⟨kind, anchor⟩, rest⟩, plan⟩ rfl
  · rfl
  · cases kind with
    | multicast => exact .returned rfl
    | split => rfl

theorem tries_index (i : Nat) : Tries c d (.index i) := by
  rintro ⟨device, known, names, _ | ⟨⟨kind, anchor⟩, rest⟩, plan⟩ rfl
  · rfl
  · cases kind with
    | multicast => rfl
    | split =>
      rw [Step.apply, part, get_bind_apply]
      cases hs : anchor.signal.parts[i]? with
      | none => simp only [hs]; rfl
      | some s =>
        simp only [hs]
        exact .entered rfl hs

theorem tries_close : Tries c d .close := by
  rintro ⟨device, known, names, _ | ⟨b, rest⟩, plan⟩ rfl
  · rfl
  · exact .closed rfl

/-- **A step leads to one of its outcomes, or it fails and changes nothing.** -/
theorem settles_apply (step : Step) : Tries c d step := by
  cases hchoice : step.choice with
  | some choice =>
    rw [Tries, step.apply_of_choice hchoice]
    exact settles_stage fun p i hp hi => .staged hchoice hp hi
  | none =>
    cases step with
    | filterNamed op names => exact tries_filterNamed op names
    | mapNamed op name => exact tries_mapNamed op name
    | buffer => exact settles_stage fun p i hp hi => .buffered hp hi
    | fuse names => exact tries_fuse names
    | name n => exact tries_name n
    | react commands => exact tries_react commands
    | stream => exact settles_modify .streamed
    | log => exact tries_log
    | multicast => exact settles_modify .opened
    | branch => exact tries_branch
    | split => exact tries_split
    | index i => exact tries_index i
    | close => exact tries_close
    | _ => cases hchoice

/-- From the draft `d`, an operation at the cursor `c` acts, or it fails and changes nothing. -/
def Acting (c : Cursor) (d : Draft) (op : Drafting Cursor) : Prop :=
  Leads (· = d) op (fun next d' => Relation.ReflTransGen Draft.Act (c, d) (next, d')) fun _ d' =>
    d' = d

theorem acting_apply (step : Step) : Acting c d (step.apply c) :=
  (settles_apply step).weaken (fun _ h => h) (fun _ _ h => h.acts) fun _ _ h => h

/-- From the draft `d`, an operation at the cursor `c` makes moves, or it fails and changes
nothing. -/
def Moving (c : Cursor) (d : Draft) (op : Drafting Cursor) : Prop :=
  Leads (· = d) op (fun next d' => Draft.Moves (c, d) (next, d')) fun _ d' => d' = d

theorem moving_apply (step : Step) : Moving c d (step.apply c) :=
  (acting_apply step).weaken (fun _ h => h) (fun _ _ h => h.lift' id fun _ _ => Draft.Act.moves)
    fun _ _ h => h

/-- Lists of steps go the ways that single steps go; if one fails, those before it went theirs. -/
theorem walks_run {R : Cursor × Draft → Cursor × Draft → Prop}
    (happly : ∀ (step : Step) (c : Cursor) (d : Draft), Leads (· = d) (step.apply c)
      (fun next d' => Relation.ReflTransGen R (c, d) (next, d')) fun _ d' => d' = d)
    (steps : List Step) (c : Cursor) (d : Draft) :
    ∃ next, Relation.ReflTransGen R (c, d) (next, (Step.run c steps d).2) ∧
      ∀ c', (Step.run c steps d).1 = .ok c' → c' = next := by
  induction steps generalizing c d with
  | nil => exact ⟨c, .refl, fun c' h => (Except.ok.inj h).symm⟩
  | cons step rest ih =>
    have hstep := happly step c d d rfl
    rw [Step.run, bind_apply]
    rcases hnext : step.apply c d with ⟨fault | next, d'⟩
    · rw [hnext] at hstep
      obtain rfl : d' = d := hstep
      exact ⟨c, .refl, fun c' h => nomatch h⟩
    · rw [hnext] at hstep
      obtain ⟨last, hmoves, hlast⟩ := ih next d'
      exact ⟨last, .trans hstep hmoves, hlast⟩

/-- **Steps act**; if one fails, those before it have. -/
theorem acts_run (steps : List Step) (c : Cursor) (d : Draft) :
    ∃ next, Relation.ReflTransGen Draft.Act (c, d) (next, (Step.run c steps d).2) ∧
      ∀ c', (Step.run c steps d).1 = .ok c' → c' = next :=
  walks_run (fun step _ _ => acting_apply step) steps c d

/-- **Steps make moves**; if one fails, the moves of those before it were made. -/
theorem moves_run (steps : List Step) (c : Cursor) (d : Draft) :
    ∃ next, Draft.Moves (c, d) (next, (Step.run c steps d).2) ∧
      ∀ c', (Step.run c steps d).1 = .ok c' → c' = next :=
  walks_run (fun step _ _ => moving_apply step) steps c d

/-- What every move keeps is kept by every list of steps, whether or not it fails. -/
theorem run_keeps {I : Cursor × Draft → Prop} (hmove : ∀ x y, Draft.Move x y → I x → I y)
    (h : I (c, d)) (steps : List Step) :
    ∃ next, I (next, (Step.run c steps d).2) ∧
      ∀ c', (Step.run c steps d).1 = .ok c' → c' = next := by
  obtain ⟨next, hmoves, hnext⟩ := moves_run steps c d
  exact ⟨next, hmoves.keeps hmove h, hnext⟩

end Drafting
end SignalRoute
