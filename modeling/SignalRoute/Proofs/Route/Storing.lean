import SignalRoute.Proofs.Codec.Stability
import SignalRoute.Proofs.Link.Traffic
import SignalRoute.Proofs.Route.Editing

/-!
# What is stored while an editor is open

An editor and the graph each hold the configuration of the processor, and the board has a third
copy.  An edit changes the first two together, and only once the command went out that changes the
third.  `Editor.Result` lists what can come of an edit; the widths of a canonical configuration keep
it from asking for bytes that are not there.

`Editor.Keeps` is what every edit leaves true, whether it works or not: the graph stores what the
editor holds, and that differs from what was there at first only where edits of its kind go.

The board is not in the picture, only what is sent to it.  What the host stores is right if the
board did as it was told; that it may not have, because a write was refused, is exactly the case in
which nothing is stored.
-/

set_option autoImplicit false

namespace SignalRoute

namespace Processor

theorem Canonical.writesWithin {d : Device} {p : Processor} (h : p.Canonical d) :
    p.WritesWithin := by
  cases p with
  | accumulator c => exact h.1.2
  | multi c => exact h.2.1.2
  | _ => trivial

theorem WritesWithin.payload_eq {p : Processor} (h : p.WritesWithin) :
    p.payload = .ok p.encode := by
  have hnarrow : p.HasNarrowReferences := by
    cases p with
    | multi c => exact h
    | _ => trivial
  exact payload_eq_ok hnarrow.fits

end Processor

namespace Editor

/-! ## What comes of an edit -/

/-- What can come of an edit.  If it fails, the editor and the graph are as before. -/
inductive Result (e : Editor) (edit : Edit) (σ : Station) : Except Fault Editor × Station → Prop
  | failed {fault : Fault} (hfault : fault ≠ .overrun) (link : Link) :
      Result e edit σ (.error fault, { σ with link := link })
  | state {bytes : Bytes} {link : Link} (hstate : edit.isState = true)
      (hsent : link.transport.sent =
        σ.link.transport.sent ++ [[Module.processor, ProcessorReg.state, e.id] ++ bytes]) :
      Result e edit σ (.ok e, { σ with link := link })
  | config {p : Processor} {link : Link} (hconfig : edit.isState = false)
      (hchange : e.change? edit = .ok (.config p)) (hcore : p.core = e.processor.core)
      (hsent : link.transport.sent =
        σ.link.transport.sent ++ [[Module.processor, ProcessorReg.parameter, e.id] ++ p.encode]) :
      Result e edit σ (.ok { e with processor := p }, ⟨link, σ.graph.setProcessor e.id p⟩)

variable {e e₀ : Editor} {σ σ' σ₀ : Station} {entry : ProcessorEntry}

/-- A prepared edit that goes out over the link, or does not. -/
theorem apply_of_prepare {edit : Edit} {change : Change} {bytes : Bytes}
    (h : e.prepare edit = .ok (change, bytes)) :
    (∃ fault link, fault ≠ .overrun ∧ e.apply edit σ = (.error fault, { σ with link := link })) ∨
      ∃ link, e.apply edit σ = (.ok (e.written change), ⟨link, e.remember σ.graph change⟩) ∧
        link.transport.sent = σ.link.transport.sent ++ [bytes] := by
  have hsent := Link.sent_write bytes σ.link
  rw [apply, h]
  dsimp only
  rcases hwrite : Link.write bytes σ.link with ⟨fault | _, link⟩
  · obtain ⟨reason, rfl⟩ := Link.write_error hwrite
    exact .inl ⟨.transport reason, link, Fault.noConfusion, rfl⟩
  · rw [hwrite] at hsent
    exact .inr ⟨link, rfl, hsent⟩

/-- **What comes of an edit** whose widths are in order. -/
theorem apply_result (hwithin : e.processor.WritesWithin) (edit : Edit) (σ : Station) :
    e.Result edit σ (e.apply edit σ) := by
  have hamounts := e.change?_amounts edit
  rcases hchange : e.change? edit with fault | change <;> rw [hchange] at hamounts
  · have hrefused : e.apply edit σ = (.error fault, σ) := by
      rw [apply, prepare, hchange]
      rfl
    rw [hrefused]
    refine .failed ?_ σ.link
    rintro rfl
    cases hamounts with
    | overrun hwide => exact hwide hwithin
  · cases hamounts with
    | state hstate bytes =>
      have hprepare : e.prepare edit =
          .ok (.state bytes, [Module.processor, ProcessorReg.state, e.id] ++ bytes) := by
        rw [prepare, hchange]
        rfl
      rcases e.apply_of_prepare (σ := σ) hprepare with ⟨fault, link, hfault, h⟩ | ⟨link, h, hsent⟩
      · exact h ▸ .failed hfault link
      · exact h ▸ .state hstate hsent
    | @config p hconfig hcore =>
      have hp : p.WritesWithin := by
        rwa [← p.writesWithin_core, hcore, e.processor.writesWithin_core]
      have hprepare : e.prepare edit = .ok (.config p,
          [Module.processor, ProcessorReg.parameter, e.id] ++ p.encode) := by
        rw [prepare, hchange]
        show (do return (_, ← e.command (.config p))) = _
        rw [command, hp.payload_eq]
        rfl
      rcases e.apply_of_prepare (σ := σ) hprepare with ⟨fault, link, hfault, h⟩ | ⟨link, h, hsent⟩
      · exact h ▸ .failed hfault link
      · exact h ▸ .config hconfig hchange hcore hsent

/-! ## Runs of one editor -/

/-- The editor and the station after an edit; an editor whose edit failed is used further. -/
def after (e : Editor) (edit : Edit) (σ : Station) : Editor × Station :=
  match e.apply edit σ with
  | (.ok e', σ') => (e', σ')
  | (.error _, σ') => (e, σ')

/-- What happens while an editor is open: it edits, or something else passes over the link, after
which writes may fail that would not have failed before, and the other way round. -/
inductive Turn : Editor × Station → Editor × Station → Prop
  | edited (e : Editor) (edit : Edit) (σ : Station) : Turn (e, σ) (e.after edit σ)
  | passed (e : Editor) (σ : Station) (link : Link) : Turn (e, σ) (e, { σ with link := link })

/-- The graph stores what the editor holds, for the processor of `entry` and with the same core:
the same kind of processor, and the same values where no edit of this kind goes. -/
structure Keeps (entry : ProcessorEntry) (e : Editor) (σ : Station) : Prop where
  id : e.id = entry.id
  output : e.output = entry.output
  core : e.processor.core = entry.processor.core
  stored : σ.graph.processor? entry.id = some { entry with processor := e.processor }

theorem Keeps.writesWithin (h : e.Keeps entry σ) {d : Device}
    (hcanonical : entry.processor.Canonical d) : e.processor.WritesWithin := by
  rw [← e.processor.writesWithin_core, h.core, entry.processor.writesWithin_core]
  exact hcanonical.writesWithin

theorem Keeps.setProcessor (h : e.Keeps entry σ) {p : Processor} (hcore : p.core = e.processor.core)
    (link : Link) :
    ({ e with processor := p } : Editor).Keeps entry ⟨link, σ.graph.setProcessor e.id p⟩ where
  id := h.id
  output := h.output
  core := hcore.trans h.core
  stored := by
    have hfind : (σ.graph.setProcessor e.id p).processor? entry.id =
        (σ.graph.processor? entry.id).map fun old =>
          if entry.id = e.id then { old with processor := p } else old :=
      IdTable.find?_modify _ e.id entry.id _
    show (σ.graph.setProcessor e.id p).processor? entry.id = _
    rw [hfind, h.stored, Option.map_some, if_pos h.id.symm]

theorem Keeps.open (hentry : σ.graph.processor? entry.id = some entry)
    (hopen : ofEntry entry = .ok e) : e.Keeps entry σ := by
  rw [ofEntry] at hopen
  split at hopen <;> cases hopen
  exact ⟨rfl, rfl, rfl, hentry⟩

theorem Keeps.result (h : e.Keeps entry σ) {edit : Edit} {e' : Editor}
    (hresult : e.Result edit σ (.ok e', σ')) : e'.Keeps entry σ' := by
  cases hresult with
  | state hstate hsent => exact { h with }
  | config hconfig hchange hcore hsent => exact h.setProcessor hcore _

/-- **Whatever happens while an editor is open, the graph stores what the editor holds.** -/
theorem Keeps.turn {d : Device} (hcanonical : entry.processor.Canonical d)
    {x y : Editor × Station} (hturn : Turn x y) (h : x.1.Keeps entry x.2) : y.1.Keeps entry y.2 := by
  cases hturn with
  | passed e σ link => exact { h with }
  | edited e edit σ =>
    have hresult := apply_result (h.writesWithin hcanonical) edit σ
    rw [after]
    rcases happly : e.apply edit σ with ⟨fault | e', σ'⟩ <;> rw [happly] at hresult
    · cases hresult
      exact { h with }
    · exact h.result hresult

theorem Keeps.run {d : Device} (hcanonical : entry.processor.Canonical d) {x y : Editor × Station}
    (hrun : Relation.ReflTransGen Turn x y) (h : x.1.Keeps entry x.2) : y.1.Keeps entry y.2 := by
  induction hrun with
  | refl => exact h
  | tail _ hturn ih => exact ih.turn hcanonical hturn

/-- **What is stored is what was last written.**  An editor is opened on a processor with a canonical
configuration, and edits are applied to it, in any order and with any arguments, while writes come
and go.  At every moment the graph stores what the editor holds.  The next edit leaves both as they
are if it fails, or if it writes a state; and otherwise it sends one command, with the configuration
that is now stored. -/
theorem stored_last_written (hentry : σ₀.graph.processor? entry.id = some entry) {d : Device}
    (hcanonical : entry.processor.Canonical d) (hopen : ofEntry entry = .ok e₀)
    (hrun : Relation.ReflTransGen Turn (e₀, σ₀) (e, σ)) :
    e.Keeps entry σ ∧ ∀ edit : Edit,
      match e.apply edit σ with
      | (.error fault, σ') => fault ≠ .overrun ∧ σ'.graph = σ.graph
      | (.ok e', σ') => e'.Keeps entry σ' ∧
        if edit.isState then e' = e ∧ σ'.graph = σ.graph
        else e.change? edit = .ok (.config e'.processor) ∧
          σ'.link.transport.sent = σ.link.transport.sent ++
            [[Module.processor, ProcessorReg.parameter, entry.id] ++ e'.processor.encode] := by
  have hkeeps : e.Keeps entry σ := Keeps.run hcanonical hrun (.open hentry hopen)
  refine ⟨hkeeps, fun edit => ?_⟩
  have hresult := apply_result (hkeeps.writesWithin hcanonical) edit σ
  rcases happly : e.apply edit σ with ⟨fault | e', σ'⟩ <;> rw [happly] at hresult
  · cases hresult with
    | failed hfault link => exact ⟨hfault, rfl⟩
  · refine ⟨hkeeps.result hresult, ?_⟩
    cases hresult with
    | state hstate hsent =>
      rw [if_pos hstate]
      exact ⟨rfl, rfl⟩
    | config hconfig hchange hcore hsent =>
      rw [if_neg (by rw [hconfig]; decide)]
      exact ⟨hchange, hkeeps.id ▸ hsent⟩

/-- A link that refuses the next write. -/
def refusing (l : Link) : Link := { l with transport := l.transport.planFailures 0 1 }

/-- Of three edits of a delay the second is refused, so the first is what is stored until the third
goes out. -/
theorem stored_last_written_refused :
    ∃ e₀ e e' σ σ', ofEntry (Bench.behindSwitch (.delay ⟨1, 1, true⟩)) = .ok e₀ ∧
      Relation.ReflTransGen Turn (e₀, Bench.switchStation (.delay ⟨1, 1, true⟩)) (e, σ) ∧
      e.Keeps (Bench.behindSwitch (.delay ⟨1, 1, true⟩)) σ ∧ e.processor = .delay ⟨1, 4, true⟩ ∧
      e.apply (.samples 7) σ = (.ok e', σ') ∧ e'.processor = .delay ⟨1, 7, true⟩ ∧
      e'.Keeps (Bench.behindSwitch (.delay ⟨1, 1, true⟩)) σ' ∧
      σ'.link.transport.sent = σ.link.transport.sent ++ [[0x09, 0x05, 0, 0x0a, 0, 7]] := by
  let entry := Bench.behindSwitch (.delay ⟨1, 1, true⟩)
  let σ₀ := Bench.switchStation (.delay ⟨1, 1, true⟩)
  let e₀ : Editor := ⟨0, .delay ⟨1, 1, true⟩, entry.output⟩
  let first := e₀.after (.samples 4) σ₀
  let second := first.1.after (.samples 9) { first.2 with link := refusing first.2.link }
  have hrun : Relation.ReflTransGen Turn (e₀, σ₀) second :=
    .tail (.tail (.single (.edited e₀ (.samples 4) σ₀)) (.passed _ _ (refusing first.2.link)))
      (.edited _ (.samples 9) _)
  have hentry : σ₀.graph.processor? entry.id = some entry := rfl
  have hcanonical : entry.processor.Canonical .standard := ⟨rfl, by decide, by decide⟩
  have hopen : ofEntry entry = .ok e₀ := rfl
  obtain ⟨hkeeps, hedit⟩ := stored_last_written hentry hcanonical hopen hrun
  obtain ⟨hkeeps', -, hsent⟩ := hedit (.samples 7)
  exact ⟨e₀, second.1, _, second.2, _, rfl, hrun, hkeeps, rfl, rfl, rfl, hkeeps', hsent⟩

end Editor
end SignalRoute
