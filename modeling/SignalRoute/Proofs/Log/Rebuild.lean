import SignalRoute.Proofs.Log.Survey
import SignalRoute.Proofs.Route.Linear
import SignalRoute.Proofs.Route.Program
import SignalRoute.Proofs.Signal.Agreement

/-!
# Rebuilding a chain

`Recovers` says of a signal on the board that a survey, asked for its byte range, comes up with a
signal that agrees with it.  Sensor signals are recovered if the catalog finds them at their own
place, and the output of a processor is recovered if its input is: the processor comes back from the
table truncated, and what it puts out does not depend on what was cut off.

`Chain.recovers` is the induction along a chain.  Every signal of the chain is recovered together
with its channels, since the next stage may read either.

Recovery is stated for a survey that has not read anything yet, although a survey remembers what it
has read.  For a chain this is enough: it is walked once, from the log down to the sensor.
-/

set_option autoImplicit false

namespace SignalRoute

/-! ## Sensors

That the catalog finds the built-in sensors at their own places is checked sensor by sensor,
channels included.  What a catalog finds in general is in `Proofs.Signal.Roots`.
-/

/-- A sensor signal that the catalog finds at its own place. -/
structure Catalog.Finds (catalog : Catalog) (t : Signal) : Prop where
  sensor : t.address.isProcessor = false
  found : (catalog.findRoot t.address t.shape.offset t.shape.unitLength).signal = t

namespace Catalog

theorem mem_parts_triple {module register : UInt8} {scale : Float32} {t : Signal}
    (ht : t ∈ (triple module register scale).parts) :
    t = (triple module register scale).channelPart scale ⟨[2], 1, 0, true⟩ 0 ∨
      t = (triple module register scale).channelPart scale ⟨[2], 1, 2, true⟩ 1 ∨
      t = (triple module register scale).channelPart scale ⟨[2], 1, 4, true⟩ 2 := by
  change t ∈ [_, _, _] at ht
  simp only [List.mem_cons, List.not_mem_nil, or_false] at ht
  rcases ht with rfl | rfl | rfl
  · exact .inl rfl
  · exact .inr (.inl rfl)
  · exact .inr (.inr rfl)

variable {name : String} {root t : Signal}

/-- The built-in sensors are tame. -/
theorem tame_standard (h : standard.get? name = some root) : root.Tame := by
  obtain ⟨address, shape, kind, rfl, rfl | ⟨size, signed, hlow, hhigh, rfl, hkind⟩⟩ :=
    standard_cases (mem_of_get? h)
  · have hshape : Shape.Tame ⟨List.replicate 3 2, 1, 0, true⟩ :=
      ⟨by simp, by simp, by decide, by decide⟩
    exact ⟨hshape, fun _ => ⟨Nat.le_of_ble_eq_true rfl, rfl⟩⟩
  · refine ⟨.scalar hlow (Nat.le_trans hhigh (by decide)) signed, fun hvector => ?_⟩
    cases hkind.symm.trans hvector

/-- The built-in sensors are found, and so are their channels. -/
theorem finds_standard (h : standard.get? name = some root) (ht : t.IsPieceOf root) :
    standard.Finds t := by
  have hmem := mem_of_get? h
  simp only [standard, List.map_cons, List.map_nil, List.mem_cons, List.not_mem_nil, or_false]
    at hmem
  rcases hmem with rfl | rfl | rfl | rfl | rfl | rfl | rfl | rfl | rfl
  all_goals rcases ht with rfl | ⟨-, ht⟩
  all_goals
    first
    | exact ⟨rfl, rfl⟩
    | exact absurd ht List.not_mem_nil
    | rcases mem_parts_triple ht with rfl | rfl | rfl <;> exact ⟨rfl, rfl⟩

end Catalog

/-! ## Signals that are recovered -/

namespace Rebuilding

variable {d : Device} {catalog : Catalog} {depth : Nat} {b : SimulatedBoard} {t : Signal}

/-- Over a link to `b`, with nothing read so far, the signal is rebuilt. -/
def Recovers (d : Device) (catalog : Catalog) (depth : Nat) (b : SimulatedBoard) (t : Signal) :
    Prop :=
  ∀ s : Survey, s.link.Reads b → s.rebuilt = .empty → ∃ r s',
    source catalog (processor d catalog depth) t.address t.shape.unitLength t.shape.offset s
      = (.ok r, s') ∧ s'.link.Reads b ∧ Signal.Agrees catalog t r

/-- A sensor signal is what the catalog says. -/
theorem recovers_sensor (h : catalog.Finds t) : Recovers d catalog depth b t := by
  intro s hreads _
  refine ⟨t, s, ?_, hreads, .refl catalog t⟩
  rw [source, h.sensor, Bool.false_and, Bool.false_and, if_neg Bool.false_ne_true,
    if_neg Bool.false_ne_true, h.found]
  rfl

theorem fusedIds_of_isFuser {p : Processor} (h : p.isFuser = false) : fusedIds p = [] := by
  cases p with
  | fuser c => cases h
  | _ => rfl

/-- What a processor puts out is made again from what can be read, if its input is recovered. -/
theorem processor_eq {p : Placed} (hsource : Recovers d catalog depth b p.source)
    (hrow : b.processors.find? p.id = some p.row.2) (hlayout : p.processor.HasLayout d)
    (hfuser : p.processor.isFuser = false) (hshape : p.source.shape.Tame)
    (hread : p.source.shape.unitLength.toNat ≤ 8) {s : Survey} (hreads : s.link.Reads b)
    (hempty : s.rebuilt = .empty) :
    ∃ (r : Signal) (i : Inferred) (s' : Survey), Signal.Agrees catalog p.source r ∧
      i.output.IsOutput r p.processor.truncated ∧
      processor d catalog (depth + 1) p.id s
        = (.ok ⟨i.output.withId p.id, i.state.map fun s => s.withId p.id⟩, s') ∧
      s'.link.Reads b := by
  obtain ⟨l, hl, hreads'⟩ := readProcessor_eq hreads hrow (Processor.decode_encode hlayout)
  obtain ⟨r, s', hs', hreads'', hagrees⟩ := hsource { s with link := l } hreads' hempty
  have htruncated : p.processor.truncated.isFuser = false :=
    Processor.isFuser_truncated.trans hfuser
  obtain ⟨i, hi, houtput⟩ := infer_eq_ok htruncated r []
  refine ⟨r, i, { s' with rebuilt := s'.rebuilt.insert p.id ⟨p.source.address,
    p.processor.truncated, ⟨i.output.withId p.id, i.state.map fun s => s.withId p.id⟩⟩ },
    hagrees, houtput, ?_, hreads''⟩
  have hcheck : check (infer r p.processor.truncated []) s' = (.ok i, s') := by
    rw [check_apply, hi]
  rw [packedSource, hshape.unpackRange_packRange hread] at hl
  rw [processor, get_bind_apply, hempty, IdTable.find?_empty]
  show (readProcessor d p.id >>= fun _ => _) s = _
  rw [bind_apply_ok hl]
  show (source catalog _ _ _ _ >>= fun _ => _) { s with link := l } = _
  rw [bind_apply_ok hs', fusedIds_of_isFuser htruncated]
  show (check (infer r p.processor.truncated []) >>= fun _ => _) s' = _
  rw [bind_apply_ok hcheck]
  rfl

/-- The output of a processor is recovered if its input is, and so are its channels. -/
theorem recovers_output {p : Placed} {o s : Signal}
    (hsource : Recovers d catalog depth b p.source)
    (hrow : b.processors.find? p.id = some p.row.2) (hlayout : p.processor.HasLayout d)
    (hkeeps : p.processor.KeepsOutput) (hshape : p.source.shape = s.shape)
    (hkind : p.source.kind = s.kind) (hs : s.shape.Tame) (hread : s.shape.unitLength.toNat ≤ 8)
    (ho : o.IsOutput s p.processor) (htame : o.Tame)
    (ht : t.IsPieceOf ((o.withId p.id).withInput p.source)) :
    Recovers d catalog (depth + 1) b t := by
  intro survey hreads hempty
  obtain ⟨r, i, s', hagrees, hi, hprocessor, hreads'⟩ := processor_eq hsource hrow hlayout
    hkeeps.isFuser (hshape ▸ hs) (hshape ▸ hread) hreads hempty
  have houtput : Signal.Agrees catalog ((o.withId p.id).withInput p.source)
      (i.output.withId p.id) :=
    hagrees.output ho hi hshape.symm hkind.symm hkeeps.label_truncated
      hkeeps.outputShape_truncated (fun _ => Processor.outputKind_truncated _) p.id
  have hplaced := (htame.withId p.id).withInput p.source
  have haddress : t.address = .processor p.id := by
    rw [hplaced.address_piece ht, Signal.address_withInput, Signal.address_withId, ho.address]
    rfl
  have hparts (hv : (i.output.withId p.id).kind.isVector = true) :
      (i.output.withId p.id).parts = (i.output.withId p.id).channelParts := by
    rw [Signal.kind_withId] at hv
    rw [Signal.parts_withId, Signal.channelParts_withId, hi.parts hv]
  refine ⟨_, s', ?_, hreads', houtput.select hplaced hparts ht⟩
  rw [haddress, source]
  show (processor d catalog (depth + 1) p.id >>= fun _ => _) survey = _
  rw [bind_apply_ok hprocessor]
  rfl

end Rebuilding

/-! ## Along a chain -/

theorem Programming.settle_of_isFuser {stage : PlannedStage} {placed : List Placed}
    (h : stage.processor.isFuser = false) : settle stage placed = stage.processor := by
  rw [settle]
  split
  · rename_i ids hfuser
    rw [hfuser] at h
    cases h
  · rfl

/-- **Every signal of a chain is recovered**, and so are its channels. -/
theorem Chain.recovers {d : Device} {catalog : Catalog} {b : SimulatedBoard} {root : Signal}
    {stages : List PlannedStage} {branches : List Branch} {c : Cursor}
    (h : Chain d root stages branches c) (hroot : root.Tame)
    (hfinds : ∀ t : Signal, t.IsPieceOf root → catalog.Finds t) (hplain : Plain stages branches)
    {placed : List Placed} (hplaced : StagesPlaced stages placed)
    (hrows : ∀ p ∈ placed, b.processors.find? p.id = some p.row.2) {depth : Nat}
    (hdepth : stages.length ≤ depth) {t : Signal} (ht : t.IsPieceOf (c.resolve placed)) :
    Rebuilding.Recovers d catalog depth b t := by
  induction h generalizing placed depth t with
  | root => exact Rebuilding.recovers_sensor (hfinds t ht)
  | @stage stages branches c h step choice hchoice p hp i hi ih =>
    obtain ⟨before, id, hbefore, rfl⟩ := hplaced.of_concat
    have hc := h.tame hroot hplain.of_concat
    have hread : c.signal.shape.unitLength.toNat ≤ 8 := hplain.read
    have hsuits := Step.suits hchoice hp hc (by rwa [← hc.shape.toNat_unitLength])
    have hfuser := hsuits.keeps.isFuser
    have hsettle : Programming.settle ⟨c, p, i.output, i.state, none, []⟩ before = p :=
      Programming.settle_of_isFuser hfuser
    rw [← hbefore.length_eq, Cursor.resolve_concat] at ht
    rw [Programming.placing, hsettle] at hrows ht
    cases depth with
    | zero =>
      rw [List.length_append] at hdepth
      cases hdepth
    | succ depth =>
      have hsource := ih hplain.of_concat hbefore (fun q hq => hrows q (List.mem_append_left _ hq))
        (by simpa using hdepth) (.inl rfl)
      have hrow := hrows _ (List.mem_append_right _ (List.mem_singleton_self _))
      exact Rebuilding.recovers_output hsource hrow hsuits.layout hsuits.keeps
        (c.shape_resolve before) (c.kind_resolve before) hc.shape hread (infer_isOutput hfuser hi)
        ((h.stage hchoice hp hi).tame hroot hplain) ht
  | @channel stages branches c h part hpart ih =>
    have hc := h.tame hroot hplain.of_cons
    exact ih hplain.of_cons hplaced hrows hdepth (hc.isPieceOf_resolve hplain.split hpart ht)

end SignalRoute
