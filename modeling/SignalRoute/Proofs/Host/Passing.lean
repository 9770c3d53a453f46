import SignalRoute.Proofs.Host.Derivation
import SignalRoute.Proofs.Host.Session
import SignalRoute.Proofs.Route.Nesting
import SignalRoute.Proofs.Signal.Passing

/-!
# Which stages change what is read

Filters, delays and the like put out the bytes that they get.  `Host.passed_reads_alike`: behind
them a signal that a draft leads to reads as before exactly if it was not read by its parts.  The
parts are lost on the way, so data that is joined or counted comes out as plain bytes
(`Host.not_alike_counted`).

Both questions are answered, for one sample and for all of them, and each answer is an equivalence
in the payload.  So where readings change it is known for which payloads: all those that hold a
sample.  The signals in question are those that a fuser or an accounter has put out and that still
have their parts.
-/

set_option autoImplicit false

namespace SignalRoute

namespace Host

variable {h : Host} {s : Signal} {p : Processor}

/-- **Which stages change what is read.**  A processor that passes samples on takes every signal
with data that a draft leads to, wherever the history of the host leads.  Its output reads from a
payload what its input reads from there, once or for all samples, faults included, exactly if the
input is not read by its parts or if the payload ends before the first sample does. -/
theorem passed_reads_alike (hh : h.Reached) (hs : h.Drafts s) (hdata : s.shape.isEmpty = false)
    (hp : p.passes = true) (fused : List Signal) :
    ∃ i, infer s p fused = .ok i ∧ ∀ raw : Bytes,
      (Signal.decode raw i.output = Signal.decode raw (s.atOffset 0) ↔
        s.readByParts = false ∨ raw.length < s.shape.length.toNat) ∧
      (i.output.decodeAll raw = (s.atOffset 0).decodeAll raw ↔
        s.readByParts = false ∨ raw.length < s.shape.length.toNat) :=
  (hs.derived hh).nested.passed_iff hdata hp fused

/-- The second axis of an acceleration. -/
def secondAxis : Except Fault Cursor :=
  (Step.run ⟨Catalog.triple Module.accelerometer 0x04 16384, none⟩ [.split, .index 1]
    Session.fresh.host.draft).1

theorem passed_reads_alike_filtered :
    ∃ c, secondAxis = .ok c ∧ Session.fresh.host.Reached ∧
      Session.fresh.host.Drafts c.signal ∧ c.signal.shape = ⟨[2], 1, 2, true⟩ ∧
      ∃ i, infer c.signal (.average ⟨2, 4, true, none⟩) [] = .ok i ∧
        ∀ raw : Bytes, i.output.decodeAll raw = (c.signal.atOffset 0).decodeAll raw := by
  have hfacts : secondAxis.toOption.map (fun c => (c.signal.shape, c.signal.readByParts)) =
      some (⟨[2], 1, 2, true⟩, false) := by decide +kernel
  obtain ⟨c, hc, hfacts⟩ := Option.map_eq_some_iff.1 hfacts
  obtain ⟨hshape, hwhole⟩ := Prod.mk.inj hfacts
  have hcursor : secondAxis = .ok c := eq_ok_of_toOption hc
  have hreached : Session.fresh.host.Reached := .start rfl rfl
  have hdrafts : Session.fresh.host.Drafts c.signal :=
    @Drafts.cursor _ [] "acceleration" _ _ c (List.forall_mem_nil _) rfl hcursor
  obtain ⟨i, hi, hread⟩ := passed_reads_alike hreached hdrafts (hshape ▸ rfl)
    (p := .average ⟨2, 4, true, none⟩) rfl []
  exact ⟨c, hcursor, hreached, hdrafts, hshape, i, hi, fun raw => (hread raw).2.2 (.inl hwhole)⟩

/-- The switch behind the count of its presses. -/
def countedSwitch : Except Fault Cursor :=
  (Step.run ⟨.root (.unindexed Module.switch 0x01) (.scalar 1 false) .integer, none⟩
    [.account .count] Session.fresh.host.draft).1

/-- Behind a delay a sample is not told from its count any more. -/
theorem not_alike_counted :
    ∃ c i, countedSwitch = .ok c ∧ Session.fresh.host.Reached ∧
      Session.fresh.host.Drafts c.signal ∧ c.signal.shape.isEmpty = false ∧
      infer c.signal (.delay ⟨5, 1, true⟩) [] = .ok i ∧
      Signal.decode [5, 0, 0, 0, 1] (c.signal.atOffset 0) = .ok (.accounted 5 (.unsigned 1)) ∧
      Signal.decode [5, 0, 0, 0, 1] i.output = .ok (.bytes [5, 0, 0, 0, 1]) := by
  refine ⟨_, _, rfl, .start rfl rfl, ?_, rfl, rfl, rfl, rfl⟩
  exact @Drafts.cursor _ [] "switch" _ [.account .count] _ (List.forall_mem_nil _) rfl rfl

end Host
end SignalRoute
