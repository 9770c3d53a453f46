import SignalRoute.Proofs.Host.Session
import SignalRoute.Proofs.Route.Feeding

/-!
# Which feedback keeps to its operand

Names let a route feed any operand from any processor, and neither the stage nor the program asks
whether they suit each other.  `Host.feedback_within_iff` says when they do: if the output of the
producer has no more bytes than the operand, up to multiples of eight, and if the operand is not too
far behind others.  Else the board writes over other operands or out of the parameters
(`Host.not_within_wide`).

Feedback is an event of the board that writes the output of one processor into the configuration of
another.  The event says where the operand begins and how many bytes are put there, which are those
of the output.  How long the operand is, it does not say.  So the two lengths would have to agree,
and nothing checks that they do.

Multiples of eight come in because the field for the length has three bits.  An output of more than
eight bytes is cut to what is left of its length in this field.
-/

set_option autoImplicit false

namespace SignalRoute

namespace Host

/-- Expressions plan feedback into operands only. -/
theorem plan_feeds {h : Host} {producer : String} {steps : List Step} {p : Plan}
    (hplan : h.plan producer (fun c => Step.run c steps) = .ok p) : p.Feeds := by
  obtain ⟨root, -, rfl⟩ := plan_eq_ok hplan
  exact Drafting.feeds_run steps ⟨root, none⟩ h.draft fun k f hf => nomatch hf

/-- **Which feedback keeps to its operand.**  Wherever an expression is planned and however the
board numbers its stages, each feedback of the plan becomes an event that is meant for the next
operand of its stage.  The board writes within that operand and within the parameters exactly if the
operand lies among the first 256 bytes and has room for the bytes that are taken from the
producer. -/
theorem feedback_within_iff {h : Host} {producer : String} {steps : List Step} {p : Plan}
    (hplan : h.plan producer (fun c => Step.run c steps) = .ok p) {k : Nat} {f : Feedback}
    (hf : p.feedback[k]? = some f) {site : Site} (hplaced : StagesPlaced p.stages site.placed) :
    ∃ event field run,
      f.Programmed p (fedInto (p.feedback.take k) f.stage) site event field run ∧
      (run.Within ⟨0, event.parameters.length⟩ ∧ run.Within field ↔
        field.start < 256 ∧ (f.signal.shape.length.toNat - 1) % 8 + 1 ≤ field.length) := by
  obtain ⟨event, field, run, hprogrammed⟩ := (plan_feeds hplan).programmed hf hplaced
  refine ⟨event, field, run, hprogrammed, ?_⟩
  rw [← hprogrammed.width]
  exact hprogrammed.within_iff

/-- Temperatures less the one before. -/
def stepping : Except Fault Plan :=
  Session.fresh.host.plan "temperature" fun c =>
    Step.run c [.delay 1, .name "last", .mapNamed .subtract "last"]

theorem feedback_within_iff_stepping :
    ∃ p f site event run, stepping = .ok p ∧ p.feedback[0]? = some f ∧
      StagesPlaced p.stages site.placed ∧ f.Programmed p 0 site event ⟨4, 4⟩ run ∧
      run.Within ⟨4, 4⟩ := by
  obtain ⟨p, subtract, f, hp, hf, hinto, hfield, hbytes⟩ :
      ∃ p subtract f, stepping = .ok p ∧ p.feedback[0]? = some f ∧
        p.stages[f.stage]? = some subtract ∧
        subtract.processor.operandField? 0 = some ⟨4, 4⟩ ∧ f.signal.shape.length = 2 :=
    ⟨_, _, _, rfl, rfl, rfl, rfl, rfl⟩
  obtain ⟨placed, hplaced⟩ := exists_stagesPlaced p.stages
  let site : Site := ⟨Session.fresh.host.station.link, placed, [], []⟩
  have hplaced : StagesPlaced p.stages site.placed := hplaced
  obtain ⟨event, field, run, hprogrammed, hwithin⟩ :=
    feedback_within_iff hp hf hplaced
  obtain rfl := hprogrammed.field_eq hinto hfield
  rw [hbytes] at hwithin
  exact ⟨p, f, site, event, run, hp, hf, hplaced, hprogrammed, (hwithin.2 (by decide)).2⟩

/-- The first axis of an acceleration where it is above all axes of the one before. -/
def widening : Except Fault Plan :=
  Session.fresh.host.plan "acceleration" fun c =>
    Step.run c [.delay 1, .name "last", .split, .index 0, .filterNamed .gt ["last"]]

/-- Six bytes are written over an operand of two, and behind the end of the parameters. -/
theorem not_within_wide :
    ∃ p f site event run, widening = .ok p ∧ p.feedback[0]? = some f ∧
      StagesPlaced p.stages site.placed ∧ f.Programmed p 0 site event ⟨3, 2⟩ run ∧
      run = ⟨3, 6⟩ ∧ event.parameters.length = 5 := by
  obtain ⟨p, compare, f, hp, hf, hinto, hfield, hlength, hbytes⟩ :
      ∃ p compare f, widening = .ok p ∧ p.feedback[0]? = some f ∧
        p.stages[f.stage]? = some compare ∧
        compare.processor.operandField? 0 = some ⟨3, 2⟩ ∧ compare.processor.encode.length = 4 ∧
        f.signal.shape.length = 6 :=
    ⟨_, _, _, rfl, rfl, rfl, rfl, rfl, rfl⟩
  obtain ⟨placed, hplaced⟩ := exists_stagesPlaced p.stages
  let site : Site := ⟨Session.fresh.host.station.link, placed, [], []⟩
  have hplaced : StagesPlaced p.stages site.placed := hplaced
  obtain ⟨event, field, run, hprogrammed⟩ := (plan_feeds hp).programmed hf hplaced
  obtain rfl := hprogrammed.field_eq hinto hfield
  have hwidth := hprogrammed.width
  rw [hbytes] at hwidth
  have hrun : run = ⟨3, 6⟩ := ByteRun.ext hprogrammed.place hwidth
  obtain ⟨stage, target, hstage, -, hparameters, -⟩ := hprogrammed.operand
  obtain rfl : compare = stage := Option.some.inj (hinto.symm.trans hstage)
  have hcount : event.parameters.length = 5 := by rw [hparameters, List.length_cons, hlength]
  exact ⟨p, f, site, event, run, hp, hf, hplaced, hprogrammed, hrun, hcount⟩

end Host
end SignalRoute
