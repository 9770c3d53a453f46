import Mathlib.Logic.Relation
import SignalRoute.Proofs.Outcome
import SignalRoute.Proofs.Signal.Revising
import SignalRoute.Proofs.Table
import SignalRoute.Route.Edit

/-!
# What editors leave to be read

An editor writes another configuration to the board and remembers it, and leaves the output and the
state that the host has for the processor as they are.  `Bench.follows_iff` says when these still
have the shapes that follow from the configuration: always but for arithmetic, and there as long as
the operand keeps its sign, or if the sign cannot be told from the result.

`Bench.Step` is what can be done with editors: open one, apply an edit, successful or not, or let
something else pass over the link.

The shapes are compared and not the signals, since a signal holds its processor, which an editor
replaces.  What is read of a payload depends on shape and kind alone, and editors change neither
kinds nor addresses.
-/

set_option autoImplicit false

namespace SignalRoute

/-! ## Edits

What an edit changes about a configuration is less than its fields suggest: modes, widths and
channels stay, and with them all that an output depends on except one sign.
-/

/-- The widths by which edits write, of sums and of references, are at most four bytes. -/
def Processor.WritesWithin : Processor → Prop
  | accumulator c => c.output ≤ 4
  | multi c => c.size ≤ 4
  | _ => True

theorem Processor.writesWithin_core (p : Processor) : p.core.WritesWithin ↔ p.WritesWithin := by
  cases p <;> exact Iff.rfl

/-- Does the edit write the state of a processor, and leave its configuration alone? -/
def Edit.isState : Edit → Bool
  | .reset | .total _ | .passNow _ | .clear => true
  | _ => false

namespace Editor

variable {e : Editor} {edit : Edit}

/-- What an edit can amount to.  A configuration differs from the one before only in what editors
change, and only large widths ask for bytes that are not there. -/
inductive Amounts (e : Editor) (edit : Edit) : Except Fault Change → Prop
  | refused (reason : String) : Amounts e edit (illegal reason)
  | overrun (hwide : ¬e.processor.WritesWithin) : Amounts e edit (.error .overrun)
  | state (hstate : edit.isState = true) (bytes : Bytes) : Amounts e edit (.ok (.state bytes))
  | config {p : Processor} (hconfig : edit.isState = false) (hcore : p.core = e.processor.core) :
      Amounts e edit (.ok (.config p))

theorem change?_amounts (e : Editor) (edit : Edit) : e.Amounts edit (e.change? edit) := by
  obtain ⟨id, processor, output⟩ := e
  cases processor with
  | accumulator c =>
    cases edit with
    | total x =>
      simp only [change?, totalBytes]
      split
      · exact .state rfl _
      · rename_i hwide
        exact .overrun fun hwithin => hwide (Nat.le_trans (m := 4) hwithin (by decide))
    | reset => exact .state rfl _
    | _ => exact .refused _
  | single c =>
    cases edit with
    | references op xs =>
      simp only [change?]
      split
      · exact .config rfl rfl
      · exact .refused _
    | _ => exact .refused _
  | multi c =>
    cases edit with
    | references op xs =>
      simp only [change?]
      split
      · exact .refused _
      · exact .config rfl rfl
    | _ => exact .refused _
  | _ => cases edit <;> first | exact .refused _ | exact .state rfl _ | exact .config rfl rfl

/-- An edit changes nothing but what editors change. -/
theorem change?_core {p : Processor} (h : e.change? edit = .ok (.config p)) :
    p.core = e.processor.core := by
  have hamounts := e.change?_amounts edit
  rw [h] at hamounts
  cases hamounts with
  | config hconfig hcore => exact hcore

/-- What an edit does to the graph, whether or not it goes out, and to the editor. -/
theorem apply_revises (e : Editor) (edit : Edit) (σ : Station) :
    ((e.apply edit σ).2.graph = σ.graph ∨ ∃ p, p.core = e.processor.core ∧
      (e.apply edit σ).2.graph = σ.graph.setProcessor e.id p) ∧
    ∀ e', (e.apply edit σ).1 = .ok e' → e'.id = e.id ∧ e'.processor.core = e.processor.core := by
  rw [apply]
  cases hprepare : e.prepare edit with
  | error fault => exact ⟨.inl rfl, fun e' h => nomatch h⟩
  | ok prepared =>
    obtain ⟨change, hchange, hcommand⟩ := bind_eq_ok.1 hprepare
    obtain ⟨bytes, -, hpair⟩ := bind_eq_ok.1 hcommand
    cases hpair
    dsimp only
    rcases hwrite : Link.write bytes σ.link with ⟨fault | -, link⟩
    · exact ⟨.inl rfl, fun e' h => nomatch h⟩
    · cases change with
      | state bytes =>
        refine ⟨.inl rfl, fun e' h => ?_⟩
        cases h
        exact ⟨rfl, rfl⟩
      | config p =>
        have hcore := change?_core hchange
        refine ⟨.inr ⟨p, hcore, rfl⟩, fun e' h => ?_⟩
        cases h
        exact ⟨rfl, hcore⟩

end Editor

/-! ## Runs -/

/-- A station and the editors that have been opened on it, in all their states. -/
structure Bench where
  station : Station
  editors : List Editor

/-- What can be done with editors. -/
inductive Bench.Step : Bench → Bench → Prop
  | opened {σ : Station} {editors : List Editor} {entry : ProcessorEntry} {e : Editor}
      (hentry : σ.graph.processor? entry.id = some entry) (he : Editor.ofEntry entry = .ok e) :
      Step ⟨σ, editors⟩ ⟨σ, e :: editors⟩
  /-- An edit goes out, or it fails. -/
  | edited {σ : Station} {editors : List Editor} {e : Editor} (he : e ∈ editors) (edit : Edit) :
      Step ⟨σ, editors⟩ ⟨(e.apply edit σ).2,
        match (e.apply edit σ).1 with
        | .ok e' => e' :: editors
        | .error _ => editors⟩
  /-- Something else passes over the link. -/
  | passed (σ : Station) (editors : List Editor) (link : Link) :
      Step ⟨σ, editors⟩ ⟨{ σ with link := link }, editors⟩

/-- An entry with another configuration that has the same core. -/
structure ProcessorEntry.Revised (e now : ProcessorEntry) : Prop where
  output : now.output = e.output
  state : now.state = e.state
  core : now.processor.core = e.processor.core

/-- The entries are those of `g` with their configurations revised, and so are the editors. -/
structure Bench.Revises (g : Graph) (b : Bench) : Prop where
  entries : ∀ id, Option.Rel ProcessorEntry.Revised (g.processor? id)
    (b.station.graph.processor? id)
  editors : ∀ e ∈ b.editors, ∃ entry, g.processor? e.id = some entry ∧
    e.processor.core = entry.processor.core

namespace Bench

variable {g : Graph} {b b' : Bench}

/-- The configuration of an entry is replaced by one with the same core. -/
theorem Revises.setProcessor (h : b.Revises g) {id : UInt8} {entry : ProcessorEntry} {p : Processor}
    (hentry : g.processor? id = some entry) (hcore : p.core = entry.processor.core) (id' : UInt8) :
    Option.Rel ProcessorEntry.Revised (g.processor? id')
      ((b.station.graph.setProcessor id p).processor? id') := by
  have hfind : (b.station.graph.setProcessor id p).processor? id' =
      (b.station.graph.processor? id').map fun e =>
        if id' = id then { e with processor := p } else e :=
    IdTable.find?_modify _ id id' _
  rw [hfind]
  have hold := h.entries id'
  generalize b.station.graph.processor? id' = current at hold
  cases hg : g.processor? id' with
  | none =>
    rw [hg] at hold
    cases hold
    exact .none
  | some old =>
    rw [hg] at hold
    cases hold with
    | some hrevised =>
      refine .some ?_
      split
      · rename_i hid
        rw [hid, hentry] at hg
        cases hg
        exact ⟨hrevised.output, hrevised.state, hcore⟩
      · exact hrevised

theorem Revises.step (h : b.Revises g) (hstep : Step b b') : b'.Revises g := by
  cases hstep with
  | @opened σ editors entry e hentry he =>
    refine ⟨h.entries, List.forall_mem_cons.2 ⟨?_, h.editors⟩⟩
    have hold := h.entries entry.id
    rw [hentry] at hold
    cases hg : g.processor? entry.id with
    | none =>
      rw [hg] at hold
      cases hold
    | some old =>
      rw [hg] at hold
      cases hold with
      | some hrevised =>
        rw [Editor.ofEntry] at he
        split at he
        · cases he
          exact ⟨old, hg, hrevised.core⟩
        · cases he
  | @edited σ editors e he edit =>
    obtain ⟨entry, hentry, hcore⟩ := h.editors e he
    obtain ⟨hgraph, heditor⟩ := e.apply_revises edit σ
    constructor
    · rcases hgraph with hsame | ⟨p, hp, hset⟩
      · rw [hsame]
        exact h.entries
      · rw [hset]
        exact h.setProcessor hentry (hp.trans hcore)
    · dsimp only
      split
      · rename_i e' hok
        obtain ⟨hid, hcore'⟩ := heditor e' hok
        refine List.forall_mem_cons.2 ⟨⟨entry, ?_, hcore'.trans hcore⟩, h.editors⟩
        rw [hid]
        exact hentry
      · exact h.editors
  | passed σ editors link => exact ⟨h.entries, h.editors⟩

theorem Revises.run (h : b.Revises g) (hrun : Relation.ReflTransGen Step b b') : b'.Revises g := by
  induction hrun with
  | refl => exact h
  | tail _ hstep ih => exact ih.step hstep

end Bench

/-! ## What is read -/

/-- The output and the state of the entry have the shapes that `infer` gives for its configuration
behind the signal `s`. -/
def ProcessorEntry.Follows (e : ProcessorEntry) (s : Signal) (fused : List Signal) : Prop :=
  ∃ i, infer s e.processor fused = .ok i ∧ e.output.shape = i.output.shape ∧
    e.state.map Signal.shape = i.state.map Signal.shape

/-- An entry that is revised follows its configuration exactly if the sign of results is the
same. -/
theorem ProcessorEntry.Revised.follows_sameSign {e now : ProcessorEntry} (h : e.Revised now)
    {s : Signal} {fused : List Signal} (hfollows : e.Follows s fused) :
    now.Follows s fused ↔ Processor.SameSign s.shape.signed e.processor now.processor := by
  obtain ⟨i, hi, hshape, hstate⟩ := hfollows
  obtain ⟨j, hj, -, hstate', -, hsame⟩ := infer_of_core h.core hi
  rw [← hsame, ProcessorEntry.Follows, h.output, h.state]
  constructor
  · rintro ⟨j', hj', hshape', -⟩
    cases hj.symm.trans hj'
    exact hshape'.symm.trans hshape
  · intro heq
    exact ⟨j, hj, hshape.trans heq.symm, hstate.trans hstate'.symm⟩

namespace Bench

/-- **What editors leave to be read.**  An entry whose output and state have the shapes that follow
from its configuration keeps this output and this state whatever is done with editors.  The kinds
that follow from the configuration stay the same, and so does the shape of the state.  The shape of
the output does exactly if the operand of arithmetic keeps its sign, or if that cannot be told. -/
theorem follows_iff {σ : Station} {b : Bench} (hrun : Relation.ReflTransGen Step ⟨σ, []⟩ b)
    {id : UInt8} {entry : ProcessorEntry} (hentry : σ.graph.processor? id = some entry) {s : Signal}
    {fused : List Signal} (hfollows : entry.Follows s fused) :
    ∃ now, b.station.graph.processor? id = some now ∧ now.output = entry.output ∧
      now.state = entry.state ∧
      (∃ i j, infer s entry.processor fused = .ok i ∧ infer s now.processor fused = .ok j ∧
        j.output.kind = i.output.kind ∧ j.state.map Signal.kind = i.state.map Signal.kind ∧
        j.state.map Signal.shape = i.state.map Signal.shape) ∧
      (now.Follows s fused ↔
        Processor.SameSign s.shape.signed entry.processor now.processor) := by
  have hstart : (⟨σ, []⟩ : Bench).Revises σ.graph := by
    refine ⟨fun id => ?_, List.forall_mem_nil _⟩
    show Option.Rel _ (σ.graph.processor? id) (σ.graph.processor? id)
    cases σ.graph.processor? id with
    | none => exact .none
    | some e => exact .some ⟨rfl, rfl, rfl⟩
  have hnow := (hstart.run hrun).entries id
  rw [hentry] at hnow
  generalize hfound : b.station.graph.processor? id = found at hnow
  cases hnow with
  | @some _ now hrevised =>
    have hfollows' := hfollows
    obtain ⟨i, hi, -⟩ := hfollows'
    obtain ⟨j, hj, hkind, hstate, hstateKind, -⟩ := infer_of_core hrevised.core hi
    exact ⟨now, rfl, hrevised.output, hrevised.state, ⟨i, j, hi, hj, hkind, hstateKind, hstate⟩,
      hrevised.follows_sameSign hfollows⟩

/-- Presses of the switch. -/
def presses : Signal := .root (.unindexed Module.switch 0x01) (.scalar 1 false) .integer

/-- A processor behind the switch, with the output that it has. -/
def behindSwitch (p : Processor) : ProcessorEntry :=
  ⟨0, presses.address, p, (Inferred.notifies presses p (p.outputShape presses.shape) .integer),
    none, none, .invalid⟩

/-- A station with a processor behind the switch, and nothing connected. -/
def switchStation (p : Processor) : Station :=
  ⟨.start .void 1 0, Graph.empty.insertProcessor (behindSwitch p)⟩

/-- An editor of the processor is opened and writes another configuration. -/
theorem run_edit (p : Processor) (edit : Edit) {p' : Processor} {e : Editor}
    (he : Editor.ofEntry (behindSwitch p) = .ok e) (hchange : e.change? edit = .ok (.config p'))
    (hfits : p'.fits = true) :
    ∃ b, Relation.ReflTransGen Step ⟨switchStation p, []⟩ b ∧
      b.station.graph.processor? 0 = some { behindSwitch p with processor := p' } := by
  have hid : e.id = 0 := by
    rw [Editor.ofEntry] at he
    split at he <;> cases he
    rfl
  have hopened : Step ⟨switchStation p, []⟩ ⟨switchStation p, [e]⟩ := .opened rfl he
  refine ⟨_, .tail (.single hopened) (.edited List.mem_cons_self edit), ?_⟩
  have hprepare : e.prepare edit = .ok (.config p',
      [Module.processor, ProcessorReg.parameter, e.id] ++ p'.encode) := by
    rw [Editor.prepare, hchange]
    show (do return (_, ← Editor.command e (.config p'))) = _
    rw [Editor.command, Processor.payload_eq_ok hfits]
    rfl
  rw [Editor.apply, hprepare]
  show (Graph.setProcessor _ e.id p').processor? 0 = _
  rw [hid]
  rfl

theorem follows_iff_delay :
    ∃ b now, Relation.ReflTransGen Step ⟨switchStation (.delay ⟨1, 1, true⟩), []⟩ b ∧
      b.station.graph.processor? 0 = some now ∧ now.processor = .delay ⟨1, 4, true⟩ ∧
      now.Follows presses [] := by
  obtain ⟨b, hrun, hnow⟩ := run_edit (.delay ⟨1, 1, true⟩) (.samples 4) rfl rfl rfl
  have hentry : (switchStation (.delay ⟨1, 1, true⟩)).graph.processor? 0 =
      some (behindSwitch (.delay ⟨1, 1, true⟩)) := rfl
  obtain ⟨now, hfound, -, -, -, hiff⟩ :=
    follows_iff hrun hentry (s := presses) ⟨_, rfl, rfl, rfl⟩
  rw [hnow] at hfound
  cases hfound
  exact ⟨b, _, hrun, hnow, rfl, hiff.2 fun c c' hc => nomatch hc⟩

/-- Sums of the switch and an operand. -/
def adding (rhs : Int32) : Processor := .math ⟨4, 1, false, .add, rhs, some 1⟩

/-- The operand -5 replaces one of the other sign: 5 if it is negative in units of the firmware,
and otherwise -5. -/
theorem not_follows_sign :
    ∃ rhs ∈ [(5 : Int32), -5], (behindSwitch (adding rhs)).Follows presses [] ∧
      ∃ b now, Relation.ReflTransGen Step ⟨switchStation (adding rhs), []⟩ b ∧
        b.station.graph.processor? 0 = some now ∧ ¬now.Follows presses [] := by
  have hbefore (rhs : Int32) : (behindSwitch (adding rhs)).Follows presses [] := ⟨_, rfl, rfl, rfl⟩
  have hafter (rhs : Int32) (hsign : ¬(toUnits presses.scale (-5) < 0 ↔ rhs < 0)) :
      ∃ b now, Relation.ReflTransGen Step ⟨switchStation (adding rhs), []⟩ b ∧
        b.station.graph.processor? 0 = some now ∧ ¬now.Follows presses [] := by
    obtain ⟨b, hrun, hnow⟩ := run_edit (adding rhs) (.operand (-5)) rfl rfl rfl
    have hrevised : (behindSwitch (adding rhs)).Revised
        { behindSwitch (adding rhs) with processor := adding (toUnits presses.scale (-5)) } :=
      ⟨rfl, rfl, rfl⟩
    refine ⟨b, _, hrun, hnow, fun hfollows => ?_⟩
    have hsame : Processor.SameSign presses.shape.signed (adding rhs)
        (adding (toUnits presses.scale (-5))) :=
      (hrevised.follows_sameSign (hbefore rhs)).1 hfollows
    have hshows : MathOp.showsSign .add presses.shape.signed = true := rfl
    have hkept := Processor.sameSign_math.1 hsame
    exact hsign (hkept hshows)
  by_cases hsign : toUnits presses.scale (-5) < 0
  · exact ⟨5, List.mem_cons_self, hbefore 5, hafter 5 fun h => absurd (h.1 hsign) (by decide)⟩
  · exact ⟨-5, by decide, hbefore (-5), hafter (-5) fun h => absurd (h.2 (by decide)) hsign⟩

end Bench
end SignalRoute
